import XmonadWayland.StackSet.Cursor

/-!
# XmonadWayland.StackSet.Views

What the operations of a `StackSet` do to the set as a whole.  A well-formed set
has distinct workspace tags, distinct screen ids and distinct windows.  `view`
either does nothing, raises a visible screen or exchanges the current workspace
with a hidden one (`ViewStep`); looking at another workspace and coming back only
reorders the lists of visible screens and hidden workspaces (`Reorder`).
-/

namespace XmonadWayland

namespace StackSet

variable {ι ℓ α σ δ : Type}

/-! ## Windows and tags -/

/-- All windows, workspace by workspace, duplicates included. -/
def windows (s : StackSet ι ℓ α σ δ) : List α :=
  s.workspaces.flatMap fun w => Stack.integrate' w.stack

/-- All tags, workspace by workspace. -/
def tags (s : StackSet ι ℓ α σ δ) : List ι := s.workspaces.map Workspace.tag

structure WellFormed (s : StackSet ι ℓ α σ δ) : Prop where
  tags_nodup : s.tags.Nodup
  screens_nodup : (s.screens.map Screen.screen).Nodup
  windows_nodup : s.windows.Nodup

/-- What a screen shows is a workspace. -/
theorem mem_workspaces_of_mem_screens {s : StackSet ι ℓ α σ δ} {sc : Screen ι ℓ α σ δ}
    (h : sc ∈ s.screens) : sc.workspace ∈ s.workspaces := by
  simp only [screens, List.mem_cons] at h
  simp only [workspaces, List.mem_cons, List.cons_append, List.mem_append]
  rcases h with rfl | h
  · exact Or.inl rfl
  · exact Or.inr (Or.inl (List.mem_map_of_mem h))

/-- The current screen is one of the screens. -/
theorem current_mem_screens (s : StackSet ι ℓ α σ δ) : s.current ∈ s.screens :=
  List.mem_cons_self

/-- The current workspace is one of the workspaces. -/
theorem current_mem_workspaces (s : StackSet ι ℓ α σ δ) :
    s.current.workspace ∈ s.workspaces := List.mem_cons_self

/-- The workspaces are those of the screens followed by the hidden ones. -/
theorem workspaces_eq (s : StackSet ι ℓ α σ δ) :
    s.workspaces = s.screens.map Screen.workspace ++ s.hidden := rfl

/-- Windows are those on the workspaces. -/
theorem mem_windows {s : StackSet ι ℓ α σ δ} {a : α} :
    a ∈ s.windows ↔ ∃ w ∈ s.workspaces, a ∈ Stack.integrate' w.stack := by
  simp [windows]

theorem mem_windows_of_mem {s : StackSet ι ℓ α σ δ} {w : Workspace ι ℓ α} {a : α}
    (hw : w ∈ s.workspaces) (ha : a ∈ Stack.integrate' w.stack) : a ∈ s.windows :=
  mem_windows.mpr ⟨w, hw, ha⟩

/-- Workspaces are told apart by their tags. -/
theorem WellFormed.workspace_eq {s : StackSet ι ℓ α σ δ} (hs : s.WellFormed)
    {w w' : Workspace ι ℓ α} (hw : w ∈ s.workspaces) (hw' : w' ∈ s.workspaces)
    (h : w.tag = w'.tag) : w = w' := List.inj_on_of_nodup_map hs.tags_nodup hw hw' h

/-- Different screens show different workspaces. -/
theorem WellFormed.screen_tags_nodup {s : StackSet ι ℓ α σ δ} (hs : s.WellFormed) :
    (s.screens.map fun sc => sc.workspace.tag).Nodup := by
  have h := hs.tags_nodup
  rw [tags, workspaces_eq, List.map_append, List.map_map] at h
  exact (List.nodup_append.mp h).1

/-- So are screens, by the tags of what they show. -/
theorem WellFormed.screen_eq_of_tag {s : StackSet ι ℓ α σ δ} (hs : s.WellFormed)
    {sc sc' : Screen ι ℓ α σ δ} (hsc : sc ∈ s.screens) (hsc' : sc' ∈ s.screens)
    (h : sc.workspace.tag = sc'.workspace.tag) : sc = sc' :=
  List.inj_on_of_nodup_map hs.screen_tags_nodup hsc hsc' h

/-- No window is twice in a stack. -/
theorem WellFormed.stack_nodup {s : StackSet ι ℓ α σ δ} (hs : s.WellFormed)
    {w : Workspace ι ℓ α} (hw : w ∈ s.workspaces) : (Stack.integrate' w.stack).Nodup :=
  (List.nodup_flatMap.mp hs.windows_nodup).1 w hw

/-- A window is on one workspace only. -/
theorem WellFormed.workspace_eq_of_mem {s : StackSet ι ℓ α σ δ} (hs : s.WellFormed)
    {w w' : Workspace ι ℓ α} {a : α} (hw : w ∈ s.workspaces) (hw' : w' ∈ s.workspaces)
    (ha : a ∈ Stack.integrate' w.stack) (ha' : a ∈ Stack.integrate' w'.stack) : w = w' :=
  eq_of_mem_flatMap_nodup hs.windows_nodup hw hw' ha ha'

section Search

variable [DecidableEq α]

@[simp] theorem has_eq_true {a : α} {st : Option (Stack α)} :
    has a st = true ↔ a ∈ Stack.integrate' st := by
  cases st with
  | none => simp [has, Stack.integrate']
  | some st =>
      obtain ⟨f, u, d⟩ := st
      simp [has, Stack.integrate']

/-- Removing duplicates loses no window. -/
theorem mem_allWindows {s : StackSet ι ℓ α σ δ} {a : α} : a ∈ s.allWindows ↔ a ∈ s.windows :=
  List.mem_eraseDups

theorem nodup_allWindows (s : StackSet ι ℓ α σ δ) : s.allWindows.Nodup := nodup_eraseDups _

/-- The tag found is that of a workspace holding the window. -/
theorem exists_of_findTag {s : StackSet ι ℓ α σ δ} {a : α} {t : ι} (h : findTag a s = some t) :
    ∃ w ∈ s.workspaces, w.tag = t ∧ a ∈ Stack.integrate' w.stack := by
  rw [findTag, List.head?_map, Option.map_eq_some_iff] at h
  obtain ⟨w, hw, ht⟩ := h
  obtain ⟨hmem, hhas⟩ := List.mem_filter.mp (List.mem_of_head? hw)
  exact ⟨w, hmem, ht, has_eq_true.mp hhas⟩

/-- Only a window that is not there has no tag. -/
theorem findTag_eq_none {s : StackSet ι ℓ α σ δ} {a : α} :
    findTag a s = none ↔ a ∉ s.windows := by
  simp only [findTag, List.head?_eq_none_iff, List.map_eq_nil_iff, List.filter_eq_nil_iff,
    has_eq_true, mem_windows]
  exact ⟨fun h ⟨w, hw, ha⟩ => h w hw ha, fun h w hw ha => h ⟨w, hw, ha⟩⟩

/-- Members are the windows. -/
theorem member_iff {s : StackSet ι ℓ α σ δ} {a : α} : member a s = true ↔ a ∈ s.windows := by
  rw [member, Option.isSome_iff_ne_none, ne_eq, findTag_eq_none, not_not]

/-- The tag of a window is that of its workspace. -/
theorem WellFormed.findTag_eq {s : StackSet ι ℓ α σ δ} (hs : s.WellFormed)
    {w : Workspace ι ℓ α} {a : α} (hw : w ∈ s.workspaces) (ha : a ∈ Stack.integrate' w.stack) :
    findTag a s = some w.tag := by
  cases h : findTag a s with
  | none => exact absurd (mem_windows_of_mem hw ha) (findTag_eq_none.mp h)
  | some t =>
      obtain ⟨w', hw', ht, ha'⟩ := exists_of_findTag h
      rw [← ht, hs.workspace_eq_of_mem hw hw' ha ha']

end Search

/-- What has the focus is the focus of the current stack. -/
theorem peek_eq_some {s : StackSet ι ℓ α σ δ} {a : α} :
    peek s = some a ↔ ∃ st, s.current.workspace.stack = some st ∧ st.focus = a := by
  cases h : s.current.workspace.stack <;> simp [peek, withStack, h]

theorem index_eq (s : StackSet ι ℓ α σ δ) :
    index s = Stack.integrate' s.current.workspace.stack := by
  cases h : s.current.workspace.stack <;> simp [index, withStack, h, Stack.integrate']

/-- The focused window is in the order, managed, and on the current workspace. -/
theorem index_of_peek {s : StackSet ι ℓ α σ δ} {a : α} (h : peek s = some a) : a ∈ index s := by
  obtain ⟨st, hst, rfl⟩ := peek_eq_some.mp h
  rw [index_eq, hst]
  exact st.focus_mem_integrate

/-- What has the focus is a window. -/
theorem mem_windows_of_peek {s : StackSet ι ℓ α σ δ} {a : α} (h : peek s = some a) :
    a ∈ s.windows := by
  have hmem := index_of_peek h
  rw [index_eq] at hmem
  exact mem_windows_of_mem s.current_mem_workspaces hmem

/-- It is on the current workspace. -/
theorem findTag_peek [DecidableEq α] {s : StackSet ι ℓ α σ δ} (hs : s.WellFormed) {a : α}
    (h : peek s = some a) : findTag a s = some s.currentTag := by
  have hmem := index_of_peek h
  rw [index_eq] at hmem
  exact hs.findTag_eq s.current_mem_workspaces hmem

theorem stack_modify' (f : Stack α → Stack α) (s : StackSet ι ℓ α σ δ) :
    (modify' f s).current.workspace.stack = s.current.workspace.stack.map f := by
  cases h : s.current.workspace.stack <;> simp [modify', modify, withStack, h]

/-! ## Mapping over workspaces -/

section Map

variable {g : Workspace ι ℓ α → Workspace ι ℓ α} {s : StackSet ι ℓ α σ δ}

theorem workspaces_mapWorkspace (g : Workspace ι ℓ α → Workspace ι ℓ α)
    (s : StackSet ι ℓ α σ δ) : (mapWorkspace g s).workspaces = s.workspaces.map g := by
  simp [workspaces, mapWorkspace, Function.comp_def]

theorem screens_mapWorkspace (g : Workspace ι ℓ α → Workspace ι ℓ α) (s : StackSet ι ℓ α σ δ) :
    (mapWorkspace g s).screens =
      s.screens.map fun scr => { scr with workspace := g scr.workspace } := by
  simp [screens, mapWorkspace]

/-- A map that keeps the tags keeps them all. -/
theorem tags_mapWorkspace (hg : ∀ w, (g w).tag = w.tag) : (mapWorkspace g s).tags = s.tags := by
  rw [tags, workspaces_mapWorkspace, List.map_map]
  exact List.map_congr_left fun w _ => hg w

/-- The windows after a map over the workspaces. -/
theorem windows_mapWorkspace (g : Workspace ι ℓ α → Workspace ι ℓ α) (s : StackSet ι ℓ α σ δ) :
    (mapWorkspace g s).windows = s.workspaces.flatMap fun w => Stack.integrate' (g w).stack := by
  rw [windows, workspaces_mapWorkspace, List.flatMap_map]

/-- Two maps over the workspaces are one. -/
theorem mapWorkspace_mapWorkspace (f g : Workspace ι ℓ α → Workspace ι ℓ α)
    (s : StackSet ι ℓ α σ δ) : mapWorkspace f (mapWorkspace g s) = mapWorkspace (f ∘ g) s := by
  simp [mapWorkspace, Function.comp_def]

/-- Only what happens to the workspaces there are matters. -/
theorem mapWorkspace_congr {f g : Workspace ι ℓ α → Workspace ι ℓ α}
    (h : ∀ w ∈ s.workspaces, f w = g w) : mapWorkspace f s = mapWorkspace g s := by
  obtain ⟨cur, vis, hid, fl⟩ := s
  simp only [workspaces, List.cons_append, List.mem_cons, List.mem_append, List.mem_map] at h
  simp only [mapWorkspace, StackSet.mk.injEq, Screen.mk.injEq, and_true]
  refine ⟨h _ (Or.inl rfl), ?_, ?_⟩
  · exact List.map_congr_left fun scr hscr =>
      by rw [h _ (Or.inr (Or.inl ⟨scr, hscr, rfl⟩))]
  · exact List.map_congr_left fun w hw => h _ (Or.inr (Or.inr hw))

end Map

/-! ## Reordering -/

/-- The same set up to the order of the visible screens and hidden workspaces. -/
structure Reorder (s s' : StackSet ι ℓ α σ δ) : Prop where
  current : s'.current = s.current
  visible : s'.visible.Perm s.visible
  hidden : s'.hidden.Perm s.hidden

theorem Reorder.refl (s : StackSet ι ℓ α σ δ) : Reorder s s :=
  ⟨rfl, List.Perm.refl _, List.Perm.refl _⟩

theorem Reorder.trans {s s' s'' : StackSet ι ℓ α σ δ} (h : Reorder s s') (h' : Reorder s' s'') :
    Reorder s s'' :=
  ⟨h'.current.trans h.current, h'.visible.trans h.visible, h'.hidden.trans h.hidden⟩

/-- A reordering keeps the screens. -/
theorem Reorder.screens_perm {s s' : StackSet ι ℓ α σ δ} (h : Reorder s s') :
    s'.screens.Perm s.screens := by
  rw [screens, screens, h.current]
  exact h.visible.cons _

/-- A reordering keeps the workspaces. -/
theorem Reorder.workspaces_perm {s s' : StackSet ι ℓ α σ δ} (h : Reorder s s') :
    s'.workspaces.Perm s.workspaces := by
  rw [workspaces_eq, workspaces_eq]
  exact (h.screens_perm.map _).append h.hidden

/-- Where a screen is, whatever it shows. -/
def frame (sc : Screen ι ℓ α σ δ) : σ × δ := (sc.screen, sc.screenDetail)

/-- No output is visible twice. -/
theorem WellFormed.visible_screens_nodup {s : StackSet ι ℓ α σ δ} (hs : s.WellFormed) :
    (s.visible.map Screen.screen).Nodup := by
  have h := hs.screens_nodup
  rw [screens, List.map_cons] at h
  exact (List.nodup_cons.mp h).2

/-- No workspace is hidden twice. -/
theorem WellFormed.hidden_tags_nodup {s : StackSet ι ℓ α σ δ} (hs : s.WellFormed) :
    (s.hidden.map Workspace.tag).Nodup := by
  have h := hs.tags_nodup
  rw [tags, workspaces_eq, List.map_append] at h
  exact (List.nodup_append.mp h).2.1

/-- The same workspaces and screens in another order are well formed. -/
theorem WellFormed.of_perm {s s' : StackSet ι ℓ α σ δ} (hs : s.WellFormed)
    (hw : s'.workspaces.Perm s.workspaces)
    (hf : (s'.screens.map frame).Perm (s.screens.map frame)) : s'.WellFormed where
  tags_nodup := (hw.map Workspace.tag).nodup_iff.mpr hs.tags_nodup
  screens_nodup := by
    have h := hf.map Prod.fst
    rw [List.map_map, List.map_map] at h
    exact h.nodup_iff.mpr hs.screens_nodup
  windows_nodup := (hw.flatMap_right _).nodup_iff.mpr hs.windows_nodup

/-! ## Viewing -/

section View

variable [DecidableEq ι] [DecidableEq σ]

/-- Viewing the current workspace changes nothing. -/
theorem view_currentTag (s : StackSet ι ℓ α σ δ) : view s.current.workspace.tag s = s := if_pos rfl

/-- What `view i` can do: nothing, raise a visible screen, or show a hidden
workspace on the current screen. -/
inductive ViewStep (i : ι) (s : StackSet ι ℓ α σ δ) : StackSet ι ℓ α σ δ → Prop
  | same : i = s.currentTag ∨ i ∉ s.tags → ViewStep i s s
  | raise (x : Screen ι ℓ α σ δ) (rest : List (Screen ι ℓ α σ δ)) :
      x.workspace.tag = i → i ≠ s.currentTag → s.visible.Perm (x :: rest) →
      ViewStep i s { s with current := x, visible := s.current :: rest }
  | unhide (x : Workspace ι ℓ α) (rest : List (Workspace ι ℓ α)) :
      x.tag = i → i ≠ s.currentTag → (∀ sc ∈ s.visible, i ≠ sc.workspace.tag) →
      s.hidden.Perm (x :: rest) →
      ViewStep i s { s with
        current := { s.current with workspace := x }, hidden := s.current.workspace :: rest }

/-- `view` does one of the steps. -/
theorem viewStep {s : StackSet ι ℓ α σ δ} (hs : s.WellFormed) (i : ι) :
    ViewStep i s (view i s) := by
  unfold view
  split
  · next hi => exact .same (Or.inl hi)
  · next hi =>
    split
    · next x hx =>
      have hmem := List.mem_of_find?_eq_some hx
      have htag : i = x.workspace.tag := by simpa using List.find?_some hx
      exact .raise x _ htag.symm hi (perm_cons_eraseP_of_mem hmem hs.visible_screens_nodup)
    · next hv =>
      have hvis : ∀ sc ∈ s.visible, i ≠ sc.workspace.tag := by simpa using hv
      split
      · next x hx =>
        have hmem := List.mem_of_find?_eq_some hx
        have htag : i = x.tag := by simpa using List.find?_some hx
        exact .unhide x _ htag.symm hi hvis (perm_cons_eraseP_of_mem hmem hs.hidden_tags_nodup)
      · next hh =>
        have hhid : ∀ w ∈ s.hidden, i ≠ w.tag := by simpa using hh
        refine .same (Or.inr ?_)
        simp only [tags, workspaces, List.cons_append, List.map_cons, List.mem_cons, List.map_append,
          List.map_map, List.mem_append, List.mem_map, not_or]
        refine ⟨hi, ?_, ?_⟩
        · rintro ⟨sc, hsc, rfl⟩
          exact hvis sc hsc rfl
        · rintro ⟨w, hw, rfl⟩
          exact hhid w hw rfl

/-- Viewing neither loses nor duplicates a workspace. -/
theorem workspaces_view_perm {s : StackSet ι ℓ α σ δ} (hs : s.WellFormed) (i : ι) :
    (view i s).workspaces.Perm s.workspaces := by
  have hstep := viewStep hs i
  generalize StackSet.view i s = s' at hstep ⊢
  cases hstep with
  | same h => exact List.Perm.refl _
  | raise x rest htag hi hperm =>
      have hvis := (hperm.map Screen.workspace).append_right s.hidden
      simp only [workspaces, List.map_cons, List.cons_append] at hvis ⊢
      exact (List.Perm.swap _ _ _).trans (hvis.symm.cons _)
  | unhide x rest htag hi hv hperm =>
      have hhid := hperm.append_left (s.visible.map Screen.workspace)
      simp only [workspaces, List.cons_append]
      exact ((List.perm_middle.cons x).trans
        ((List.Perm.swap _ _ _).trans (List.perm_middle.symm.cons _))).trans (hhid.symm.cons _)

/-- Viewing leaves the screens where they are. -/
theorem frames_view_perm {s : StackSet ι ℓ α σ δ} (hs : s.WellFormed) (i : ι) :
    ((view i s).screens.map frame).Perm (s.screens.map frame) := by
  have hstep := viewStep hs i
  generalize StackSet.view i s = s' at hstep ⊢
  cases hstep with
  | same h => exact List.Perm.refl _
  | raise x rest htag hi hperm =>
      have hvis := hperm.map frame
      simp only [screens, List.map_cons] at hvis ⊢
      exact (List.Perm.swap _ _ _).trans (hvis.symm.cons _)
  | unhide x rest htag hi hv hperm => exact List.Perm.refl _

/-- Viewing keeps a set well formed. -/
theorem WellFormed.view {s : StackSet ι ℓ α σ δ} (hs : s.WellFormed) (i : ι) :
    (view i s).WellFormed := hs.of_perm (workspaces_view_perm hs i) (frames_view_perm hs i)

/-- Viewing keeps the windows. -/
theorem windows_view_perm {s : StackSet ι ℓ α σ δ} (hs : s.WellFormed) (i : ι) :
    (view i s).windows.Perm s.windows := (workspaces_view_perm hs i).flatMap_right _

/-- A workspace that exists becomes current. -/
theorem currentTag_view {s : StackSet ι ℓ α σ δ} (hs : s.WellFormed) {i : ι} (hi : i ∈ s.tags) :
    (view i s).currentTag = i := by
  have hstep := viewStep hs i
  generalize StackSet.view i s = s' at hstep ⊢
  cases hstep with
  | same h => exact (h.resolve_right (not_not.mpr hi)).symm
  | raise x rest htag => exact htag
  | unhide x rest htag => exact htag

/-- Viewing a visible workspace makes its screen the current one. -/
theorem view_of_visible {s : StackSet ι ℓ α σ δ} {i : ι} {x : Screen ι ℓ α σ δ}
    (hi : i ≠ s.currentTag) (hx : s.visible.find? (fun sc => i = sc.workspace.tag) = some x) :
    view i s = { s with
      current := x, visible := s.current :: s.visible.eraseP fun y => x.screen = y.screen } := by
  rw [view, if_neg hi, hx]

/-- Viewing a hidden workspace shows it on the current screen. -/
theorem view_of_hidden {s : StackSet ι ℓ α σ δ} {i : ι} {x : Workspace ι ℓ α}
    (hi : i ≠ s.currentTag) (hv : s.visible.find? (fun sc => i = sc.workspace.tag) = none)
    (hx : s.hidden.find? (fun w => i = w.tag) = some x) :
    view i s = { s with
      current := { s.current with workspace := x }
      hidden := s.current.workspace :: s.hidden.eraseP fun y => x.tag = y.tag } := by
  rw [view, if_neg hi, hv, hx]

/-- Looking at another workspace and coming back reorders at most. -/
theorem view_view_currentTag {s : StackSet ι ℓ α σ δ} (hs : s.WellFormed) (i : ι) :
    Reorder s (view s.currentTag (view i s)) := by
  have hstep := viewStep hs i
  generalize StackSet.view i s = s' at hstep ⊢
  cases hstep with
  | same h => rw [view, if_pos rfl]; exact Reorder.refl s
  | raise x rest htag hi hperm =>
      have hne : s.currentTag ≠ x.workspace.tag := htag ▸ Ne.symm hi
      have hfind : (s.current :: rest).find? (fun sc => s.currentTag = sc.workspace.tag)
          = some s.current := List.find?_cons_of_pos (decide_eq_true rfl)
      have herase : ((s.current :: rest).eraseP fun y => s.current.screen = y.screen) = rest :=
        List.eraseP_cons_of_pos (decide_eq_true rfl)
      rw [view_of_visible hne hfind, herase]
      exact ⟨rfl, hperm.symm, List.Perm.refl _⟩
  | unhide x rest htag hi hv hperm =>
      have hne : s.currentTag ≠ x.tag := htag ▸ Ne.symm hi
      have hnone : s.visible.find? (fun sc => s.currentTag = sc.workspace.tag) = none := by
        have hnd := hs.screen_tags_nodup
        rw [screens, List.map_cons] at hnd
        apply List.find?_eq_none.mpr
        intro sc hsc
        have hsc' : s.currentTag ≠ sc.workspace.tag := fun e =>
          (List.nodup_cons.mp hnd).1 (List.mem_map.mpr ⟨sc, hsc, e.symm⟩)
        simpa using hsc'
      have hfind : (s.current.workspace :: rest).find? (fun w => s.currentTag = w.tag)
          = some s.current.workspace := List.find?_cons_of_pos (decide_eq_true rfl)
      have herase : ((s.current.workspace :: rest).eraseP fun y =>
          s.current.workspace.tag = y.tag) = rest := List.eraseP_cons_of_pos (decide_eq_true rfl)
      rw [view_of_hidden (s := { s with
        current := { s.current with workspace := x }, hidden := s.current.workspace :: rest })
        hne hnone hfind, herase]
      exact ⟨rfl, List.Perm.refl _, hperm.symm⟩

/-- Viewing commutes with a map that keeps the tags. -/
theorem view_mapWorkspace {g : Workspace ι ℓ α → Workspace ι ℓ α}
    (hg : ∀ w, (g w).tag = w.tag) (i : ι) (s : StackSet ι ℓ α σ δ) :
    view i (mapWorkspace g s) = mapWorkspace g (view i s) := by
  have hcur : (mapWorkspace g s).currentTag = s.currentTag := hg _
  unfold view
  rw [hcur]
  split
  · rfl
  · simp only [mapWorkspace, List.find?_map, Function.comp_def, hg]
    cases hv : s.visible.find? fun x => decide (i = x.workspace.tag) with
    | some x => simp [List.eraseP_map, Function.comp_def]
    | none =>
        cases hh : s.hidden.find? fun x => decide (i = x.tag) with
        | some x => simp [List.eraseP_map, Function.comp_def, hg]
        | none => simp

end View

end StackSet

end XmonadWayland
