import XmonadWayland.StackSet.Views

/-!
# XmonadWayland.StackSet.Moves

What the window operations do to a `StackSet`.  Forgetting the windows (`bare`)
leaves what is displayed where; operations on stacks do not change it, and looking
at another workspace and coming back only reorders it, so moving a window or a
whole family never changes what any screen displays (`SameDisplay`).  Every
operation that adds or removes no window keeps workspaces, screens and windows up
to order (`Rearranged`).
-/

namespace XmonadWayland

namespace StackSet

variable {ι ℓ α σ δ : Type}

/-! ## Forgetting the windows -/

/-- The set with empty stacks: the workspaces and where they are displayed. -/
def bare (s : StackSet ι ℓ α σ δ) : StackSet ι ℓ α σ δ :=
  mapWorkspace (fun w => { w with stack := none }) s

/-- A workspace without its windows. -/
def label (w : Workspace ι ℓ α) : ι × ℓ := (w.tag, w.layout)

/-- A screen and the tag of the workspace it displays. -/
def shown (sc : Screen ι ℓ α σ δ) : σ × δ × ι := (sc.screen, sc.screenDetail, sc.workspace.tag)

theorem workspaces_bare (s : StackSet ι ℓ α σ δ) :
    (bare s).workspaces = s.workspaces.map fun w => { w with stack := none } :=
  workspaces_mapWorkspace _ s

/-- Tags and layouts do not depend on the windows. -/
theorem labels_bare (s : StackSet ι ℓ α σ δ) :
    (bare s).workspaces.map label = s.workspaces.map label := by
  rw [workspaces_bare, List.map_map]
  rfl

/-- Nor does what the screens show. -/
theorem shown_bare (s : StackSet ι ℓ α σ δ) :
    (bare s).screens.map shown = s.screens.map shown := by
  rw [bare, screens_mapWorkspace, List.map_map]
  rfl

theorem frames_eq (s : StackSet ι ℓ α σ δ) :
    s.screens.map frame = (s.screens.map shown).map fun x => (x.1, x.2.1) := by
  rw [List.map_map]
  rfl

/-- Tags are part of the labels. -/
theorem tags_eq (s : StackSet ι ℓ α σ δ) : s.tags = (s.workspaces.map label).map Prod.fst := by
  rw [List.map_map]
  rfl

theorem frames_bare (s : StackSet ι ℓ α σ δ) :
    (bare s).screens.map frame = s.screens.map frame := by
  rw [frames_eq, shown_bare, ← frames_eq]

theorem tags_bare (s : StackSet ι ℓ α σ δ) : (bare s).tags = s.tags := by
  rw [tags_eq, labels_bare, ← tags_eq]

/-- Without windows there are none. -/
theorem windows_bare (s : StackSet ι ℓ α σ δ) : (bare s).windows = [] := by
  simp [bare, windows_mapWorkspace, Stack.integrate']

@[simp] theorem currentTag_bare (s : StackSet ι ℓ α σ δ) :
    (bare s).currentTag = s.currentTag := rfl

/-- A well formed set stays so without its windows. -/
theorem WellFormed.bare {s : StackSet ι ℓ α σ δ} (hs : s.WellFormed) : (bare s).WellFormed where
  tags_nodup := by rw [tags_bare]; exact hs.tags_nodup
  screens_nodup := by
    have h : (StackSet.bare s).screens.map Screen.screen = s.screens.map Screen.screen := by
      rw [StackSet.bare, screens_mapWorkspace, List.map_map]
      rfl
    rw [h]
    exact hs.screens_nodup
  windows_nodup := by rw [windows_bare]; exact List.nodup_nil

/-- A map that only touches stacks is not seen in the bare set. -/
theorem bare_mapWorkspace {g : Workspace ι ℓ α → Workspace ι ℓ α}
    (hg : ∀ w, label (g w) = label w) (s : StackSet ι ℓ α σ δ) :
    bare (mapWorkspace g s) = bare s := by
  rw [bare, mapWorkspace_mapWorkspace, bare]
  apply mapWorkspace_congr
  intro w hw
  have h := hg w
  simp only [label, Prod.mk.injEq] at h
  simp [h.1, h.2]

/-- Modifying a stack changes windows only. -/
theorem bare_modify (d : Option (Stack α)) (f : Stack α → Option (Stack α))
    (s : StackSet ι ℓ α σ δ) : bare (modify d f s) = bare s := rfl

theorem bare_modify' (f : Stack α → Stack α) (s : StackSet ι ℓ α σ δ) :
    bare (modify' f s) = bare s := rfl

section Stacks

variable [DecidableEq α]

/-- Inserting changes windows only. -/
theorem bare_insertUp (w : α) (s : StackSet ι ℓ α σ δ) : bare (insertUp w s) = bare s := by
  unfold insertUp
  split
  · rfl
  · exact bare_modify _ _ s

/-- Deleting changes windows only. -/
theorem bare_delete' (w : α) (s : StackSet ι ℓ α σ δ) : bare (delete' w s) = bare s := by
  rw [delete', bare_mapWorkspace]
  intro ws
  rfl

end Stacks

/-! ## Windows -/

/-- A modification that keeps the windows of the stack keeps all windows. -/
theorem windows_modify'_perm {f : Stack α → Stack α} {s : StackSet ι ℓ α σ δ}
    (hf : ∀ st, s.current.workspace.stack = some st → (f st).integrate.Perm st.integrate) :
    (modify' f s).windows.Perm s.windows := by
  obtain ⟨⟨⟨t, l, st⟩, i, d⟩, vis, hid, fl⟩ := s
  cases st with
  | none => exact List.Perm.refl _
  | some st => exact (hf st rfl).append_right _

/-- Windows that pass a filter of every stack. -/
theorem windows_filter (p : α → Bool) (s : StackSet ι ℓ α σ δ) :
    (mapWorkspace (fun w => { w with stack := w.stack.bind (Stack.filter p) }) s).windows
      = s.windows.filter p := by
  rw [windows_mapWorkspace, windows, List.filter_flatMap]
  congr 1
  funext w
  cases w.stack with
  | none => rfl
  | some st => exact Stack.integrate'_filter p st

section Stacks

variable [DecidableEq α]

/-- One window goes, the others stay in order. -/
theorem windows_delete' (w : α) (s : StackSet ι ℓ α σ δ) :
    (delete' w s).windows = s.windows.filter (· ≠ w) := windows_filter _ s

theorem windows_delete (w : α) (s : StackSet ι ℓ α σ δ) :
    (delete w s).windows = s.windows.filter (· ≠ w) := windows_delete' w s

/-- A new window is added to those there are. -/
theorem windows_insertUp_perm {w : α} {s : StackSet ι ℓ α σ δ} (h : w ∉ s.windows) :
    (insertUp w s).windows.Perm (w :: s.windows) := by
  rw [insertUp, if_neg fun hm => h (member_iff.mp hm)]
  obtain ⟨⟨⟨t, l, st⟩, i, d⟩, vis, hid, fl⟩ := s
  cases st with
  | none => exact List.Perm.refl _
  | some st =>
      obtain ⟨f, u, d⟩ := st
      exact List.perm_middle.append_right _

end Stacks

/-! ## Where a window is -/

/-- The workspace tagged `t` holds the window. -/
def Houses (s : StackSet ι ℓ α σ δ) (t : ι) (x : α) : Prop :=
  ∃ ws ∈ s.workspaces, ws.tag = t ∧ x ∈ Stack.integrate' ws.stack

/-- Where windows live does not depend on the order of the workspaces. -/
theorem houses_of_perm {s s' : StackSet ι ℓ α σ δ} (h : s'.workspaces.Perm s.workspaces) {t : ι}
    {x : α} : Houses s' t x ↔ Houses s t x :=
  exists_congr fun _ => and_congr_left' h.mem_iff

section Stacks

variable [DecidableEq α]

/-- The tag that is found is that of the workspace with the window. -/
theorem findTag_eq_some {s : StackSet ι ℓ α σ δ} (hs : s.WellFormed) {x : α} {t : ι} :
    findTag x s = some t ↔ Houses s t x := by
  refine ⟨exists_of_findTag, ?_⟩
  rintro ⟨ws, hws, rfl, hx⟩
  exact hs.findTag_eq hws hx

/-- A deleted window lives nowhere. -/
theorem houses_delete' {w : α} {s : StackSet ι ℓ α σ δ} {t : ι} {x : α} :
    Houses (delete' w s) t x ↔ Houses s t x ∧ x ≠ w := by
  have hstack : ∀ st : Option (Stack α),
      x ∈ Stack.integrate' (st.bind (Stack.filter (· ≠ w))) ↔ x ∈ Stack.integrate' st ∧ x ≠ w := by
    intro st
    cases st with
    | none => simp [Stack.integrate']
    | some st =>
        rw [Option.bind_some, Stack.integrate'_filter, List.mem_filter, decide_eq_true_eq]
        rfl
  rw [Houses, delete', workspaces_mapWorkspace]
  constructor
  · rintro ⟨_, hws', htag, hx⟩
    obtain ⟨ws, hws, rfl⟩ := List.mem_map.mp hws'
    exact ⟨⟨ws, hws, htag, ((hstack ws.stack).mp hx).1⟩, ((hstack ws.stack).mp hx).2⟩
  · rintro ⟨⟨ws, hws, htag, hx⟩, hne⟩
    exact ⟨_, List.mem_map_of_mem hws, htag, (hstack ws.stack).mpr ⟨hx, hne⟩⟩

/-- An inserted window lives on the current workspace. -/
theorem houses_insertUp {w : α} {s : StackSet ι ℓ α σ δ} (h : w ∉ s.windows) {t : ι} {x : α} :
    Houses (insertUp w s) t x ↔ Houses s t x ∨ t = s.currentTag ∧ x = w := by
  rw [insertUp, if_neg fun hm => h (member_iff.mp hm)]
  obtain ⟨⟨⟨t', l, st⟩, i, d⟩, vis, hid, fl⟩ := s
  have hcur : ∀ st' : Option (Stack α), Houses ⟨⟨⟨t', l, st'⟩, i, d⟩, vis, hid, fl⟩ t x
      ↔ (t' = t ∧ x ∈ Stack.integrate' st')
        ∨ ∃ ws ∈ vis.map Screen.workspace ++ hid, ws.tag = t ∧ x ∈ Stack.integrate' ws.stack :=
    fun st' => by simp only [Houses, workspaces, List.cons_append, List.mem_cons, exists_eq_or_imp]
  have hput : x ∈ Stack.integrate' (withStack (some ⟨w, [], []⟩)
      (fun st => some ⟨w, st.up, st.focus :: st.down⟩) ⟨⟨⟨t', l, st⟩, i, d⟩, vis, hid, fl⟩)
        ↔ x ∈ Stack.integrate' st ∨ x = w := by
    cases st with
    | none => simp [withStack, Stack.integrate']
    | some st => simp [withStack, Stack.integrate', Stack.integrate, or_comm, or_left_comm]
  rw [hcur, modify, hcur]
  refine (or_congr (and_congr Iff.rfl hput) Iff.rfl).trans ?_
  rw [and_or_left, or_right_comm]
  exact or_congr Iff.rfl (and_congr_left' eq_comm)

end Stacks

/-! ## What is displayed -/

/-- Every screen displays what it did, the current one included. -/
def SameDisplay (s s' : StackSet ι ℓ α σ δ) : Prop := Reorder (bare s) (bare s')

/-- What differs by windows only shows the same workspaces. -/
theorem SameDisplay.of_bare {s s' : StackSet ι ℓ α σ δ} (h : bare s' = bare s) :
    SameDisplay s s' := by
  rw [SameDisplay, h]
  exact Reorder.refl _

theorem SameDisplay.refl (s : StackSet ι ℓ α σ δ) : SameDisplay s s := Reorder.refl _

theorem SameDisplay.trans {s s' s'' : StackSet ι ℓ α σ δ} (h : SameDisplay s s')
    (h' : SameDisplay s' s'') : SameDisplay s s'' := Reorder.trans h h'

/-- The same screens show the same workspaces. -/
theorem SameDisplay.shown_perm {s s' : StackSet ι ℓ α σ δ} (h : SameDisplay s s') :
    (s'.screens.map shown).Perm (s.screens.map shown) := by
  have hperm := h.screens_perm.map shown
  rwa [shown_bare, shown_bare] at hperm

/-- Tags and layouts are the same. -/
theorem SameDisplay.labels_perm {s s' : StackSet ι ℓ α σ δ} (h : SameDisplay s s') :
    (s'.workspaces.map label).Perm (s.workspaces.map label) := by
  have hperm := h.workspaces_perm.map label
  rwa [labels_bare, labels_bare] at hperm

theorem SameDisplay.frames_perm {s s' : StackSet ι ℓ α σ δ} (h : SameDisplay s s') :
    (s'.screens.map frame).Perm (s.screens.map frame) := by
  rw [frames_eq, frames_eq]
  exact h.shown_perm.map _

/-- The same screen is current. -/
theorem SameDisplay.current {s s' : StackSet ι ℓ α σ δ} (h : SameDisplay s s') :
    shown s'.current = shown s.current := by
  have hcur : shown (bare s').current = shown (bare s).current :=
    congrArg shown (Reorder.current h)
  exact hcur

/-- Deleting a window changes no display. -/
theorem sameDisplay_delete [DecidableEq α] (w : α) (s : StackSet ι ℓ α σ δ) :
    SameDisplay s (delete w s) := by
  have h : Reorder (bare (delete' w s)) (bare (delete w s)) :=
    ⟨rfl, List.Perm.refl _, List.Perm.refl _⟩
  rwa [bare_delete'] at h

/-! ## Rearranging -/

/-- The same workspaces with their layouts, the same screens and the same windows,
wherever each of them is now. -/
structure Rearranged (s s' : StackSet ι ℓ α σ δ) : Prop where
  labels : (s'.workspaces.map label).Perm (s.workspaces.map label)
  frames : (s'.screens.map frame).Perm (s.screens.map frame)
  windows : s'.windows.Perm s.windows

theorem Rearranged.refl (s : StackSet ι ℓ α σ δ) : Rearranged s s :=
  ⟨List.Perm.refl _, List.Perm.refl _, List.Perm.refl _⟩

theorem Rearranged.trans {s s' s'' : StackSet ι ℓ α σ δ} (h : Rearranged s s')
    (h' : Rearranged s' s'') : Rearranged s s'' :=
  ⟨h'.labels.trans h.labels, h'.frames.trans h.frames, h'.windows.trans h.windows⟩

/-- Rearranging keeps the tags. -/
theorem Rearranged.tags_perm {s s' : StackSet ι ℓ α σ δ} (h : Rearranged s s') :
    s'.tags.Perm s.tags := by
  rw [tags_eq, tags_eq]
  exact h.labels.map Prod.fst

/-- A set with the tags, the screens and the windows of a well-formed one, in any
order, is well formed. -/
theorem Rearranged.wellFormed {s s' : StackSet ι ℓ α σ δ} (h : Rearranged s s')
    (hs : s.WellFormed) : s'.WellFormed where
  tags_nodup := h.tags_perm.nodup_iff.mpr hs.tags_nodup
  screens_nodup := by
    have hf := h.frames.map Prod.fst
    rw [List.map_map, List.map_map] at hf
    exact hf.nodup_iff.mpr hs.screens_nodup
  windows_nodup := h.windows.nodup_iff.mpr hs.windows_nodup

/-- What is displayed and the windows decide well-formedness. -/
theorem SameDisplay.wellFormed {s s' : StackSet ι ℓ α σ δ} (h : SameDisplay s s')
    (hs : s.WellFormed) (hw : s'.windows.Nodup) : s'.WellFormed := by
  have hb : (bare s').WellFormed := hs.bare.of_perm h.workspaces_perm (h.screens_perm.map frame)
  refine ⟨tags_bare s' ▸ hb.tags_nodup, ?_, hw⟩
  have hf := congrArg (List.map Prod.fst) (frames_bare s')
  rw [List.map_map, List.map_map] at hf
  exact (List.Perm.of_eq hf).nodup_iff.mp hb.screens_nodup

/-- The same display with the same windows is a rearrangement. -/
theorem SameDisplay.rearranged {s s' : StackSet ι ℓ α σ δ} (h : SameDisplay s s')
    (hw : s'.windows.Perm s.windows) : Rearranged s s' := ⟨h.labels_perm, h.frames_perm, hw⟩

/-- A modification that keeps the windows rearranges. -/
theorem rearranged_modify' {f : Stack α → Stack α} {s : StackSet ι ℓ α σ δ}
    (hf : ∀ st, s.current.workspace.stack = some st → (f st).integrate.Perm st.integrate) :
    Rearranged s (modify' f s) :=
  (SameDisplay.of_bare (bare_modify' f s)).rearranged (windows_modify'_perm hf)

/-- Focusing up rearranges nothing but the focus. -/
theorem rearranged_focusUp (s : StackSet ι ℓ α σ δ) : Rearranged s (focusUp s) :=
  rearranged_modify' fun st _ => List.Perm.of_eq st.integrate_focusUp'

/-- So does focusing down. -/
theorem rearranged_focusDown (s : StackSet ι ℓ α σ δ) : Rearranged s (focusDown s) :=
  rearranged_modify' fun st _ => List.Perm.of_eq st.integrate_focusDown'

/-- Swapping up rearranges. -/
theorem rearranged_swapUp (s : StackSet ι ℓ α σ δ) : Rearranged s (swapUp s) :=
  rearranged_modify' fun st _ => st.integrate_swapUp'_perm

/-- Swapping down rearranges. -/
theorem rearranged_swapDown (s : StackSet ι ℓ α σ δ) : Rearranged s (swapDown s) :=
  rearranged_modify' fun st _ => st.integrate_swapDown'_perm

/-- Swapping with the master rearranges. -/
theorem rearranged_swapMaster (s : StackSet ι ℓ α σ δ) : Rearranged s (swapMaster s) :=
  rearranged_modify' fun st _ => st.integrate_swapMaster'_perm

/-- The loop of `focusWindow` turns the current stack. -/
theorem focusUntil_eq [DecidableEq α] (w : α) (fuel : Nat) (s : StackSet ι ℓ α σ δ) :
    focusUntil w fuel s = modify' (Stack.untilFocus w fuel) s := by
  induction fuel generalizing s with
  | zero =>
      obtain ⟨⟨⟨t, l, st⟩, i, d⟩, vis, hid, fl⟩ := s
      cases st <;> rfl
  | succ fuel ih =>
      obtain ⟨⟨⟨t, l, st⟩, i, d⟩, vis, hid, fl⟩ := s
      rw [focusUntil, ih]
      cases st with
      | none => rfl
      | some st =>
          simp only [peek, withStack, modify', modify, focusUp, Stack.untilFocus, Option.some.injEq]
          split <;> rfl

section View

variable [DecidableEq ι] [DecidableEq σ]

/-- Viewing a workspace moves screens, not windows. -/
theorem rearranged_view {s : StackSet ι ℓ α σ δ} (hs : s.WellFormed) (i : ι) :
    Rearranged s (view i s) :=
  ⟨(workspaces_view_perm hs i).map label, frames_view_perm hs i, windows_view_perm hs i⟩

/-- Viewing does not look at the windows. -/
theorem bare_view (i : ι) (s : StackSet ι ℓ α σ δ) : bare (view i s) = view i (bare s) := by
  rw [bare, bare, view_mapWorkspace]
  intro w
  rfl

/-- Work on another workspace that does not change what is displayed. -/
theorem sameDisplay_onWorkspace {s : StackSet ι ℓ α σ δ} (hs : s.WellFormed) (n : ι)
    {f : StackSet ι ℓ α σ δ → StackSet ι ℓ α σ δ} (hf : ∀ s', bare (f s') = bare s') :
    SameDisplay s (onWorkspace n f s) := by
  rw [SameDisplay, onWorkspace, bare_view, hf, bare_view, ← currentTag_bare]
  exact view_view_currentTag hs.bare n

/-- Viewing a displayed workspace only reorders the screens. -/
theorem screens_view_perm {s : StackSet ι ℓ α σ δ} (hs : s.WellFormed) {sc : Screen ι ℓ α σ δ}
    (hsc : sc ∈ s.screens) : (view sc.workspace.tag s).screens.Perm s.screens := by
  have hstep := viewStep hs sc.workspace.tag
  generalize StackSet.view sc.workspace.tag s = s' at hstep ⊢
  cases hstep with
  | same h => exact List.Perm.refl _
  | raise x rest htag hi hperm => exact (List.Perm.swap _ _ _).trans (hperm.symm.cons _)
  | unhide x rest htag hi hv hperm =>
      rcases List.mem_cons.mp hsc with rfl | hsc
      · exact absurd rfl hi
      · exact absurd rfl (hv sc hsc)

/-- It makes its screen the current one. -/
theorem current_view {s : StackSet ι ℓ α σ δ} (hs : s.WellFormed) {sc : Screen ι ℓ α σ δ}
    (hsc : sc ∈ s.screens) : (view sc.workspace.tag s).current = sc := by
  have htag : (view sc.workspace.tag s).currentTag = sc.workspace.tag :=
    currentTag_view hs (List.mem_map_of_mem (mem_workspaces_of_mem_screens hsc))
  exact hs.screen_eq_of_tag ((screens_view_perm hs hsc).mem_iff.mp (current_mem_screens _)) hsc htag

/-- Viewing a displayed workspace changes which screen is current only. -/
theorem shown_view_perm {s : StackSet ι ℓ α σ δ} (hs : s.WellFormed) {sc : Screen ι ℓ α σ δ}
    (hsc : sc ∈ s.screens) :
    ((view sc.workspace.tag s).screens.map shown).Perm (s.screens.map shown) :=
  (screens_view_perm hs hsc).map shown

/-- The screen of the viewed workspace is the current one. -/
theorem shown_current_view {s : StackSet ι ℓ α σ δ} (hs : s.WellFormed) {sc : Screen ι ℓ α σ δ}
    (hsc : sc ∈ s.screens) : shown (view sc.workspace.tag s).current = shown sc :=
  congrArg shown (current_view hs hsc)

/-! ## Moving a window -/

/-- Working on another workspace leaves the windows that work leaves. -/
theorem windows_onWorkspace_perm {s : StackSet ι ℓ α σ δ} (hs : s.WellFormed) (n : ι)
    {f : StackSet ι ℓ α σ δ → StackSet ι ℓ α σ δ} (hf : ∀ s', bare (f s') = bare s')
    (hw : (f (view n s)).windows.Nodup) :
    (onWorkspace n f s).windows.Perm (f (view n s)).windows :=
  windows_view_perm ((SameDisplay.of_bare (hf _)).wellFormed (hs.view n) hw) _

variable [DecidableEq α]

/-- The window leaves every stack, whichever workspace is looked at. -/
theorem windows_onWorkspace_delete' {s : StackSet ι ℓ α σ δ} (hs : s.WellFormed) (n : ι) (w : α) :
    (onWorkspace n (delete' w) s).windows.Perm (s.windows.filter (· ≠ w)) := by
  have hcut := windows_delete' w (view n s)
  have hnd : (delete' w (view n s)).windows.Nodup := by
    rw [hcut]
    exact (hs.view n).windows_nodup.filter _
  exact (windows_onWorkspace_perm hs n (bare_delete' w) hnd).trans
    ((List.Perm.of_eq hcut).trans ((windows_view_perm hs n).filter _))

/-- A window inserted on any workspace is added to those there are. -/
theorem windows_onWorkspace_insertUp {s : StackSet ι ℓ α σ δ} (hs : s.WellFormed) (n : ι) {w : α}
    (h : w ∉ s.windows) : (onWorkspace n (insertUp w) s).windows.Perm (w :: s.windows) := by
  have hmem : w ∉ (view n s).windows := fun hm => h ((windows_view_perm hs n).mem_iff.mp hm)
  have hput := windows_insertUp_perm hmem
  have hnd : (insertUp w (view n s)).windows.Nodup :=
    hput.nodup_iff.mpr (List.nodup_cons.mpr ⟨hmem, (hs.view n).windows_nodup⟩)
  exact (windows_onWorkspace_perm hs n (bare_insertUp w) hnd).trans
    (hput.trans ((windows_view_perm hs n).cons w))

/-- Moving a window to another workspace changes no screen and loses no window. -/
theorem shiftWin_spec {s : StackSet ι ℓ α σ δ} (hs : s.WellFormed) (n : ι) (w : α) :
    SameDisplay s (shiftWin n w s) ∧ (shiftWin n w s).windows.Perm s.windows := by
  cases ht : findTag w s with
  | none =>
      simp only [shiftWin, ht]
      exact ⟨SameDisplay.refl s, List.Perm.refl _⟩
  | some t =>
      simp only [shiftWin, ht]
      split
      · have hmem : w ∈ s.windows := by
          by_contra hw
          rw [findTag_eq_none.mpr hw] at ht
          contradiction
        have hcut := windows_onWorkspace_delete' hs t w
        have hd := sameDisplay_onWorkspace hs t (bare_delete' w)
        have hs' := hd.wellFormed hs (hcut.nodup_iff.mpr (hs.windows_nodup.filter _))
        have hgone : w ∉ (onWorkspace t (delete' w) s).windows := fun h => by
          simpa using hcut.mem_iff.mp h
        have hput := windows_onWorkspace_insertUp hs' n hgone
        refine ⟨hd.trans (sameDisplay_onWorkspace hs' n (bare_insertUp w)), ?_⟩
        have herase : s.windows.filter (· ≠ w) = s.windows.erase w := by
          rw [hs.windows_nodup.erase_eq_filter]
          exact List.filter_congr fun x _ => by rw [Bool.eq_iff_iff, bne_iff_ne, decide_eq_true_eq]
        have hback : (w :: s.windows.filter (· ≠ w)).Perm s.windows :=
          herase ▸ (List.perm_cons_erase hmem).symm
        exact hput.trans ((hcut.cons w).trans hback)
      · exact ⟨SameDisplay.refl s, List.Perm.refl _⟩

/-- Shifting a window keeps all windows. -/
theorem rearranged_shiftWin {s : StackSet ι ℓ α σ δ} (hs : s.WellFormed) (n : ι) (w : α) :
    Rearranged s (shiftWin n w s) := (shiftWin_spec hs n w).1.rearranged (shiftWin_spec hs n w).2

/-- So does moving several windows. -/
theorem foldr_shiftWin_spec {s : StackSet ι ℓ α σ δ} (hs : s.WellFormed) (n : ι) (family : List α) :
    SameDisplay s (family.foldr (shiftWin n) s) ∧ Rearranged s (family.foldr (shiftWin n) s) := by
  induction family with
  | nil => exact ⟨SameDisplay.refl s, Rearranged.refl s⟩
  | cons w family ih =>
      have hs' := ih.2.wellFormed hs
      exact ⟨ih.1.trans (shiftWin_spec hs' n w).1, ih.2.trans (rearranged_shiftWin hs' n w)⟩

/-! ## Where a moved window is -/

/-- A window deleted from any workspace lives nowhere. -/
theorem houses_onWorkspace_delete' {s : StackSet ι ℓ α σ δ} (hs : s.WellFormed) (n : ι) (w : α)
    {t : ι} {x : α} : Houses (onWorkspace n (delete' w) s) t x ↔ Houses s t x ∧ x ≠ w := by
  have hnd : (delete' w (view n s)).windows.Nodup := by
    rw [windows_delete']
    exact (hs.view n).windows_nodup.filter _
  have hwf := (SameDisplay.of_bare (bare_delete' w _)).wellFormed (hs.view n) hnd
  rw [onWorkspace, houses_of_perm (workspaces_view_perm hwf _), houses_delete',
    houses_of_perm (workspaces_view_perm hs n)]

/-- A window inserted on a workspace lives there. -/
theorem houses_onWorkspace_insertUp {s : StackSet ι ℓ α σ δ} (hs : s.WellFormed) {n : ι}
    (hn : n ∈ s.tags) {w : α} (h : w ∉ s.windows) {t : ι} {x : α} :
    Houses (onWorkspace n (insertUp w) s) t x ↔ Houses s t x ∨ t = n ∧ x = w := by
  have hmem : w ∉ (view n s).windows := fun hm => h ((windows_view_perm hs n).mem_iff.mp hm)
  have hnd : (insertUp w (view n s)).windows.Nodup :=
    (windows_insertUp_perm hmem).nodup_iff.mpr
      (List.nodup_cons.mpr ⟨hmem, (hs.view n).windows_nodup⟩)
  have hwf := (SameDisplay.of_bare (bare_insertUp w _)).wellFormed (hs.view n) hnd
  rw [onWorkspace, houses_of_perm (workspaces_view_perm hwf _), houses_insertUp hmem,
    houses_of_perm (workspaces_view_perm hs n), currentTag_view hs hn]

/-- A window that is where it should move to stays. -/
theorem shiftWin_of_findTag {s : StackSet ι ℓ α σ δ} {n : ι} {w : α} (h : findTag w s = some n) :
    shiftWin n w s = s := by
  simp only [shiftWin, h]
  exact if_neg fun hmove => hmove.2 rfl

/-- A moved window is on the workspace it was moved to, the others are where they were. -/
theorem findTag_shiftWin {s : StackSet ι ℓ α σ δ} (hs : s.WellFormed) {n : ι} (hn : n ∈ s.tags)
    {w : α} (hw : w ∈ s.windows) (x : α) :
    findTag x (shiftWin n w s) = if x = w then some n else findTag x s := by
  cases ht : findTag w s with
  | none => exact absurd hw (findTag_eq_none.mp ht)
  | some t =>
      by_cases hnt : n = t
      · rw [shiftWin_of_findTag (hnt ▸ ht)]
        split
        · next h => rw [h, ht, hnt]
        · rfl
      · have hcut := windows_onWorkspace_delete' hs t w
        have hdisplay := sameDisplay_onWorkspace hs t (bare_delete' w)
        have hs' := hdisplay.wellFormed hs (hcut.nodup_iff.mpr (hs.windows_nodup.filter _))
        have hgone : w ∉ (onWorkspace t (delete' w) s).windows := fun h => by
          simpa using hcut.mem_iff.mp h
        have hn' : n ∈ (onWorkspace t (delete' w) s).tags := by
          rw [tags_eq] at hn ⊢
          exact (hdisplay.labels_perm.map Prod.fst).mem_iff.mpr hn
        have hmove : shiftWin n w s = onWorkspace n (insertUp w) (onWorkspace t (delete' w) s) := by
          simp only [shiftWin, ht]
          exact if_pos ⟨decide_eq_true hn, hnt⟩
        have hwf := (rearranged_shiftWin hs n w).wellFormed hs
        refine Option.ext fun t' => ?_
        rw [findTag_eq_some hwf, hmove, houses_onWorkspace_insertUp hs' hn' hgone,
          houses_onWorkspace_delete' hs, ← findTag_eq_some hs]
        split
        · next h => simp [h, eq_comm]
        · next h => simp [h]

/-- A family moved together is on one workspace. -/
theorem findTag_foldr_shiftWin {s : StackSet ι ℓ α σ δ} (hs : s.WellFormed) {n : ι}
    (hn : n ∈ s.tags) {family : List α} (hf : ∀ w ∈ family, w ∈ s.windows) {x : α}
    (hx : x ∈ family) : findTag x (family.foldr (shiftWin n) s) = some n := by
  induction family with
  | nil => contradiction
  | cons w family ih =>
      have hrest := (foldr_shiftWin_spec hs n family).2
      have hw : w ∈ (family.foldr (shiftWin n) s).windows :=
        hrest.windows.mem_iff.mpr (hf w List.mem_cons_self)
      rw [List.foldr_cons, findTag_shiftWin (hrest.wellFormed hs) (hrest.tags_perm.mem_iff.mpr hn) hw]
      split
      · rfl
      · next hne =>
        exact ih (fun y hy => hf y (List.mem_cons_of_mem w hy))
          ((List.mem_cons.mp hx).resolve_left hne)

/-- Moving a family changes nothing iff it is there already. -/
theorem foldr_shiftWin_eq_self {s : StackSet ι ℓ α σ δ} (hs : s.WellFormed) {n : ι}
    (hn : n ∈ s.tags) {family : List α} (hf : ∀ w ∈ family, w ∈ s.windows) :
    family.foldr (shiftWin n) s = s ↔ ∀ w ∈ family, findTag w s = some n := by
  constructor
  · intro h w hw
    rw [← findTag_foldr_shiftWin hs hn hf hw, h]
  · intro h
    induction family with
    | nil => rfl
    | cons w family ih =>
        rw [List.foldr_cons, ih (fun y hy => hf y (List.mem_cons_of_mem w hy))
          fun y hy => h y (List.mem_cons_of_mem w hy)]
        exact shiftWin_of_findTag (h w List.mem_cons_self)

/-! ## Focusing a window -/

/-- Focusing a window of another workspace: its workspace is viewed and its stack
turned until the window has the focus. -/
theorem focusWindow_eq {s : StackSet ι ℓ α σ δ} (hs : s.WellFormed) {ws : Workspace ι ℓ α} {w : α}
    (hws : ws ∈ s.workspaces) (hw : w ∈ Stack.integrate' ws.stack) :
    focusWindow w s = modify' (Stack.refocus w) (view ws.tag s) := by
  unfold focusWindow
  split
  · next hpeek =>
    obtain ⟨st, hst, hfocus⟩ := peek_eq_some.mp hpeek.symm
    have hcur : ws = s.current.workspace :=
      hs.workspace_eq_of_mem hws s.current_mem_workspaces hw
        (by rw [hst, Stack.integrate', ← hfocus]; exact st.focus_mem_integrate)
    have hself : st.refocus w = st := by
      obtain ⟨f, u, d⟩ := st
      simp only [Stack.refocus, Stack.length_integrate, Stack.untilFocus]
      exact if_pos hfocus
    rw [hcur, view_currentTag]
    obtain ⟨⟨⟨t, l, st'⟩, i, d⟩, vis, hid, fl⟩ := s
    subst hst
    simp only [modify', modify, withStack, hself]
  · rw [hs.findTag_eq hws hw]
    simp only [focusUntil_eq]
    generalize StackSet.view ws.tag s = s'
    obtain ⟨⟨⟨t, l, st⟩, i, d⟩, vis, hid, fl⟩ := s'
    cases st <;> rfl

/-- A window that is not there cannot be focused. -/
theorem focusWindow_of_not_mem {s : StackSet ι ℓ α σ δ} {w : α} (h : w ∉ s.windows) :
    focusWindow w s = s := by
  unfold focusWindow
  split
  · rfl
  · rw [findTag_eq_none.mpr h]

/-- The loop of `focusWindow` stops on the window it looks for. -/
theorem peek_focusWindow {s : StackSet ι ℓ α σ δ} (hs : s.WellFormed) {w : α}
    (h : w ∈ s.windows) : peek (focusWindow w s) = some w := by
  obtain ⟨ws, hws, hw⟩ := mem_windows.mp h
  have hv := hs.view ws.tag
  have hmem : ws ∈ (view ws.tag s).workspaces := (workspaces_view_perm hs _).mem_iff.mpr hws
  have hcur : (view ws.tag s).current.workspace = ws :=
    hv.workspace_eq (current_mem_workspaces _) hmem
      (currentTag_view hs (List.mem_map_of_mem hws))
  rw [focusWindow_eq hs hws hw, peek_eq_some]
  cases hst : ws.stack with
  | none => rw [hst] at hw; simp [Stack.integrate'] at hw
  | some st =>
      rw [hst, Stack.integrate'] at hw
      exact ⟨st.refocus w, by simp [modify', modify, withStack, hcur, hst], Stack.focus_refocus hw⟩

/-- Focusing a window views its workspace. -/
theorem bare_focusWindow {s : StackSet ι ℓ α σ δ} (hs : s.WellFormed) {ws : Workspace ι ℓ α}
    {w : α} (hws : ws ∈ s.workspaces) (hw : w ∈ Stack.integrate' ws.stack) :
    bare (focusWindow w s) = bare (view ws.tag s) := by
  rw [focusWindow_eq hs hws hw, bare_modify']

/-- Focusing a displayed window raises its screen and changes no display. -/
theorem shown_focusWindow {s : StackSet ι ℓ α σ δ} (hs : s.WellFormed) {sc : Screen ι ℓ α σ δ}
    {w : α} (hsc : sc ∈ s.screens) (hw : w ∈ Stack.integrate' sc.workspace.stack) :
    ((focusWindow w s).screens.map shown).Perm (s.screens.map shown)
      ∧ shown (focusWindow w s).current = shown sc := by
  have hb := bare_focusWindow hs (mem_workspaces_of_mem_screens hsc) hw
  constructor
  · rw [← shown_bare, hb, shown_bare]
    exact shown_view_perm hs hsc
  · have hcur := congrArg (fun s' => shown s'.current) hb
    exact hcur.trans (shown_current_view hs hsc)

/-- Focusing a window keeps all windows. -/
theorem rearranged_focusWindow {s : StackSet ι ℓ α σ δ} (hs : s.WellFormed) (w : α) :
    Rearranged s (focusWindow w s) := by
  by_cases h : w ∈ s.windows
  · obtain ⟨ws, hws, hw⟩ := mem_windows.mp h
    rw [focusWindow_eq hs hws hw]
    exact (rearranged_view hs _).trans
      (rearranged_modify' fun st _ => List.Perm.of_eq (st.integrate_refocus w))
  · rw [focusWindow_of_not_mem h]
    exact Rearranged.refl s

end View

end StackSet

end XmonadWayland
