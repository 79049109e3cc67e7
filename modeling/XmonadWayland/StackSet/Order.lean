import XmonadWayland.StackSet.Moves

/-!
# XmonadWayland.StackSet.Order

The order of the windows of each workspace.  `stackOf t` is the stack of the workspace
tagged `t`, whether it is current, visible or hidden; looking at another workspace or
focusing a window changes no order, and moving windows keeps the relative order of all
others in every workspace.
-/

namespace XmonadWayland

namespace StackSet

variable {ι ℓ α σ δ : Type} [DecidableEq ι]

/-! ## Stacks by tag -/

/-- The stack of the workspace with the tag. -/
def stackOf (t : ι) (s : StackSet ι ℓ α σ δ) : Option (Stack α) :=
  (s.workspaces.find? fun ws => ws.tag = t).bind Workspace.stack

/-- The windows of the workspace with the tag, in order. -/
def orderOf (t : ι) (s : StackSet ι ℓ α σ δ) : List α := Stack.integrate' (stackOf t s)

/-- The stack of a workspace by its tag. -/
theorem stackOf_eq {s : StackSet ι ℓ α σ δ} (hnd : s.tags.Nodup) {ws : Workspace ι ℓ α}
    (hws : ws ∈ s.workspaces) : stackOf ws.tag s = ws.stack := by
  cases hfind : s.workspaces.find? fun w => w.tag = ws.tag with
  | none =>
      have hnone := List.find?_eq_none.mp hfind ws hws
      simp at hnone
  | some w =>
      have htag : w.tag = ws.tag := by simpa using List.find?_some hfind
      rw [stackOf, hfind, List.inj_on_of_nodup_map hnd (List.mem_of_find?_eq_some hfind) hws htag]
      rfl

/-- A tag that is not there has no stack. -/
theorem stackOf_of_not_mem {s : StackSet ι ℓ α σ δ} {t : ι} (h : t ∉ s.tags) :
    stackOf t s = none := by
  have hnone : s.workspaces.find? (fun ws => ws.tag = t) = none := by
    refine List.find?_eq_none.mpr fun ws hws htag => h ?_
    exact List.mem_map.mpr ⟨ws, hws, by simpa using htag⟩
  rw [stackOf, hnone, Option.bind_none]

/-- The current tag has the current stack. -/
theorem stackOf_currentTag (s : StackSet ι ℓ α σ δ) :
    stackOf s.currentTag s = s.current.workspace.stack := by
  rw [stackOf, workspaces, List.cons_append, List.find?_cons_of_pos (by simp [currentTag])]
  rfl

/-- The stacks of two sets with the same workspaces, in any order. -/
theorem stackOf_of_perm {s s' : StackSet ι ℓ α σ δ} (hs : s.WellFormed)
    (h : s'.workspaces.Perm s.workspaces) (t : ι) : stackOf t s' = stackOf t s := by
  have htags : s'.tags.Perm s.tags := h.map Workspace.tag
  by_cases ht : t ∈ s.tags
  · obtain ⟨ws, hws, rfl⟩ := List.mem_map.mp ht
    rw [stackOf_eq hs.tags_nodup hws,
      stackOf_eq (htags.nodup_iff.mpr hs.tags_nodup) (h.mem_iff.mpr hws)]
  · rw [stackOf_of_not_mem ht, stackOf_of_not_mem fun hm => ht (htags.mem_iff.mp hm)]

theorem stackOf_mapWorkspace {g : Workspace ι ℓ α → Workspace ι ℓ α} (hg : ∀ w, (g w).tag = w.tag)
    (s : StackSet ι ℓ α σ δ) (t : ι) : stackOf t (mapWorkspace g s)
      = (s.workspaces.find? fun ws => ws.tag = t).bind fun ws => (g ws).stack := by
  rw [stackOf, workspaces_mapWorkspace, List.find?_map, Option.bind_map]
  simp only [Function.comp_def, hg]

/-- The current stack modified. -/
theorem stackOf_modify' (f : Stack α → Stack α) (s : StackSet ι ℓ α σ δ) (t : ι) :
    stackOf t (modify' f s)
      = if t = s.currentTag then s.current.workspace.stack.map f else stackOf t s := by
  split
  · next h =>
    rw [h, ← stack_modify']
    exact stackOf_currentTag (modify' f s)
  · next h =>
    have hcur : ¬(s.current.workspace.tag = t) := fun heq => h heq.symm
    simp only [stackOf, workspaces, modify', modify, List.cons_append]
    rw [List.find?_cons_of_neg (by simpa using hcur), List.find?_cons_of_neg (by simpa using hcur)]

/-! ## Orders kept -/

section Kept

variable [DecidableEq α]

/-- Deleting a window keeps the order of the others. -/
theorem orderOf_delete' (w : α) (s : StackSet ι ℓ α σ δ) (t : ι) :
    orderOf t (delete' w s) = (orderOf t s).filter (· ≠ w) := by
  have hmap := stackOf_mapWorkspace (g := fun ws : Workspace ι ℓ α =>
    { ws with stack := ws.stack.bind (Stack.filter (· ≠ w)) }) (fun _ => rfl) s t
  rw [orderOf, delete', hmap, orderOf, stackOf]
  cases s.workspaces.find? fun ws => ws.tag = t with
  | none => rfl
  | some ws =>
      simp only [Option.bind_some]
      cases ws.stack with
      | none => rfl
      | some st => exact Stack.integrate'_filter _ st

/-- A new window stands before the focused one and changes nothing else. -/
theorem orderOf_insertUp {w : α} {s : StackSet ι ℓ α σ δ} {keep : α → Bool} (hw : keep w = false)
    (t : ι) : (orderOf t (insertUp w s)).filter keep = (orderOf t s).filter keep := by
  unfold insertUp
  split
  · rfl
  · by_cases ht : t = s.currentTag
    · subst ht
      have hnew := stackOf_currentTag (modify (some ⟨w, [], []⟩)
        (fun st => some ⟨w, st.up, st.focus :: st.down⟩) s)
      rw [orderOf, orderOf, stackOf_currentTag]
      refine (congrArg (fun st => (Stack.integrate' st).filter keep) hnew).trans ?_
      cases hst : s.current.workspace.stack with
      | none => simp [modify, withStack, hst, Stack.integrate', Stack.integrate, hw]
      | some st => simp [modify, withStack, hst, Stack.integrate', Stack.integrate, hw]
    · have hcur : ¬(s.current.workspace.tag = t) := fun heq => ht heq.symm
      simp only [orderOf, stackOf, workspaces, modify, List.cons_append]
      rw [List.find?_cons_of_neg (by simpa using hcur),
        List.find?_cons_of_neg (by simpa using hcur)]

variable [DecidableEq σ]

omit [DecidableEq α] in
/-- Viewing changes no stack. -/
theorem stackOf_view {s : StackSet ι ℓ α σ δ} (hs : s.WellFormed) (i t : ι) :
    stackOf t (view i s) = stackOf t s := stackOf_of_perm hs (workspaces_view_perm hs i) t

/-- Focusing a window turns a stack and changes no order. -/
theorem orderOf_focusWindow {s : StackSet ι ℓ α σ δ} (hs : s.WellFormed) (w : α) (t : ι) :
    orderOf t (focusWindow w s) = orderOf t s := by
  by_cases h : w ∈ s.windows
  · obtain ⟨ws, hws, hw⟩ := mem_windows.mp h
    rw [focusWindow_eq hs hws hw, orderOf, stackOf_modify', orderOf, ← stackOf_view hs ws.tag t]
    split
    · next ht =>
      rw [ht, stackOf_currentTag]
      cases (view ws.tag s).current.workspace.stack with
      | none => rfl
      | some st => exact Stack.integrate_refocus w st
    · rfl
  · rw [focusWindow_of_not_mem h]

omit [DecidableEq α] in
/-- Working on another workspace leaves the stacks that work leaves. -/
theorem stackOf_onWorkspace {s : StackSet ι ℓ α σ δ} (hs : s.WellFormed) (n : ι)
    {f : StackSet ι ℓ α σ δ → StackSet ι ℓ α σ δ} (hf : ∀ s', bare (f s') = bare s')
    (hw : (f (view n s)).windows.Nodup) (t : ι) :
    stackOf t (onWorkspace n f s) = stackOf t (f (view n s)) :=
  stackOf_view ((SameDisplay.of_bare (hf _)).wellFormed (hs.view n) hw) _ t

theorem nodup_delete' {s : StackSet ι ℓ α σ δ} (hs : s.WellFormed) (n : ι) (w : α) :
    (delete' w (view n s)).windows.Nodup := by
  rw [windows_delete']
  exact (hs.view n).windows_nodup.filter _

theorem nodup_insertUp {s : StackSet ι ℓ α σ δ} (hs : s.WellFormed) (n : ι) {w : α}
    (h : w ∉ s.windows) : (insertUp w (view n s)).windows.Nodup := by
  have hmem : w ∉ (view n s).windows := fun hm => h ((windows_view_perm hs n).mem_iff.mp hm)
  exact (windows_insertUp_perm hmem).nodup_iff.mpr
    (List.nodup_cons.mpr ⟨hmem, (hs.view n).windows_nodup⟩)

/-- A window that moves is cut out of the set, and then put into its new workspace. -/
theorem shiftWin_moves {s : StackSet ι ℓ α σ δ} (hs : s.WellFormed) {n : ι} {w : α}
    (hmove : shiftWin n w s ≠ s) : ∃ s₁ : StackSet ι ℓ α σ δ, s₁.WellFormed ∧ w ∉ s₁.windows
      ∧ s₁.tags.Perm s.tags ∧ shiftWin n w s = onWorkspace n (insertUp w) s₁
      ∧ ∀ t, orderOf t s₁ = (orderOf t s).filter (· ≠ w) := by
  cases hfrom : findTag w s with
  | none => exact absurd (by simp only [shiftWin, hfrom]) hmove
  | some t' =>
      by_cases hcond : tagMember n s ∧ n ≠ t'
      · have hcut := windows_onWorkspace_delete' hs t' w
        have hdisplay := sameDisplay_onWorkspace hs t' (bare_delete' w)
        refine ⟨onWorkspace t' (delete' w) s, hdisplay.wellFormed hs
          (hcut.nodup_iff.mpr (hs.windows_nodup.filter _)), fun h => ?_, ?_, ?_, fun t => ?_⟩
        · simpa using hcut.mem_iff.mp h
        · rw [tags_eq, tags_eq]
          exact hdisplay.labels_perm.map Prod.fst
        · simp only [shiftWin, hfrom, if_pos hcond]
        · rw [orderOf, stackOf_onWorkspace hs t' (bare_delete' w) (nodup_delete' hs t' w), ← orderOf,
            orderOf_delete', orderOf, stackOf_view hs, ← orderOf]
      · exact absurd (by simp only [shiftWin, hfrom, if_neg hcond]) hmove

/-- Moving a window keeps the relative order of all others in every workspace. -/
theorem orderOf_shiftWin {s : StackSet ι ℓ α σ δ} (hs : s.WellFormed) (n : ι) {w : α}
    {keep : α → Bool} (hw : keep w = false) (t : ι) :
    (orderOf t (shiftWin n w s)).filter keep = (orderOf t s).filter keep := by
  by_cases hmove : shiftWin n w s = s
  · rw [hmove]
  · obtain ⟨s₁, hs₁, hgone, -, heq, horder⟩ := shiftWin_moves hs hmove
    rw [heq, orderOf, stackOf_onWorkspace hs₁ n (bare_insertUp w) (nodup_insertUp hs₁ n hgone),
      ← orderOf, orderOf_insertUp hw, orderOf, stackOf_view hs₁, ← orderOf, horder,
      List.filter_filter]
    refine List.filter_congr fun x _ => ?_
    by_cases hx : x = w
    · rw [hx, hw, Bool.false_and]
    · simp [hx]

/-- A window that moves has the focus where it arrives. -/
theorem focus_shiftWin {s : StackSet ι ℓ α σ δ} (hs : s.WellFormed) {n : ι} (hn : n ∈ s.tags) {w : α}
    (hw : w ∈ s.windows) (hfrom : findTag w s ≠ some n) :
    (stackOf n (shiftWin n w s)).map Stack.focus = some w := by
  have hmove : shiftWin n w s ≠ s := by
    intro heq
    have htag := findTag_shiftWin hs hn hw w
    rw [heq, if_pos rfl] at htag
    exact hfrom htag
  obtain ⟨s₁, hs₁, hgone, htags, heq, -⟩ := shiftWin_moves hs hmove
  have hcur : (view n s₁).currentTag = n := currentTag_view hs₁ (htags.mem_iff.mpr hn)
  have hput : (insertUp w (view n s₁)).currentTag = n := by
    rw [← currentTag_bare, bare_insertUp, currentTag_bare, hcur]
  have hmem : w ∉ (view n s₁).windows := fun h => hgone ((windows_view_perm hs₁ n).mem_iff.mp h)
  rw [heq, stackOf_onWorkspace hs₁ n (bare_insertUp w) (nodup_insertUp hs₁ n hgone)]
  have hstack := stackOf_currentTag (insertUp w (view n s₁))
  rw [hput] at hstack
  rw [hstack, insertUp, if_neg fun h => hmem (member_iff.mp h)]
  cases hst : (view n s₁).current.workspace.stack <;> simp [modify, withStack, hst]

/-- Moving a family keeps the relative order of all windows outside it. -/
theorem orderOf_foldr_shiftWin {s : StackSet ι ℓ α σ δ} (hs : s.WellFormed) (n : ι)
    {family : List α} {keep : α → Bool} (hf : ∀ w ∈ family, keep w = false) (t : ι) :
    (orderOf t (family.foldr (shiftWin n) s)).filter keep = (orderOf t s).filter keep := by
  induction family with
  | nil => rfl
  | cons w family ih =>
      have hrest := (foldr_shiftWin_spec hs n family).2.wellFormed hs
      rw [List.foldr_cons, orderOf_shiftWin hrest n (hf w List.mem_cons_self)]
      exact ih fun x hx => hf x (List.mem_cons_of_mem w hx)

/-- A window outside a family stays where it is. -/
theorem findTag_foldr_shiftWin_of_not_mem {s : StackSet ι ℓ α σ δ} (hs : s.WellFormed) {n : ι}
    (hn : n ∈ s.tags) {family : List α} (hf : ∀ w ∈ family, w ∈ s.windows) {x : α}
    (hx : x ∉ family) : findTag x (family.foldr (shiftWin n) s) = findTag x s := by
  induction family with
  | nil => rfl
  | cons w family ih =>
      have hrest := (foldr_shiftWin_spec hs n family).2
      have hw : w ∈ (family.foldr (shiftWin n) s).windows :=
        hrest.windows.mem_iff.mpr (hf w List.mem_cons_self)
      rw [List.mem_cons, not_or] at hx
      rw [List.foldr_cons, findTag_shiftWin (hrest.wellFormed hs)
        (hrest.tags_perm.mem_iff.mpr hn) hw, if_neg hx.1]
      exact ih (fun y hy => hf y (List.mem_cons_of_mem w hy)) hx.2

/-! ## Orders say where windows are -/

omit [DecidableEq σ] [DecidableEq α] in
/-- A window lives on the workspace in whose order it is. -/
theorem houses_iff_mem_orderOf {s : StackSet ι ℓ α σ δ} (hs : s.WellFormed) {t : ι} {x : α} :
    Houses s t x ↔ x ∈ orderOf t s := by
  constructor
  · rintro ⟨ws, hws, rfl, hx⟩
    rwa [orderOf, stackOf_eq hs.tags_nodup hws]
  · intro hx
    by_cases ht : t ∈ s.tags
    · obtain ⟨ws, hws, rfl⟩ := List.mem_map.mp ht
      rw [orderOf, stackOf_eq hs.tags_nodup hws] at hx
      exact ⟨ws, hws, rfl, hx⟩
    · rw [orderOf, stackOf_of_not_mem ht] at hx
      contradiction

omit [DecidableEq σ] in
/-- With the same orders every window is where it was. -/
theorem findTag_of_orders {s s' : StackSet ι ℓ α σ δ} (hs : s.WellFormed) (hs' : s'.WellFormed)
    (h : ∀ t, orderOf t s' = orderOf t s) (x : α) : findTag x s' = findTag x s := by
  refine Option.ext fun t => ?_
  rw [findTag_eq_some hs', findTag_eq_some hs, houses_iff_mem_orderOf hs', houses_iff_mem_orderOf hs,
    h]

omit [DecidableEq σ] in
/-- A window found on the current workspace is in its stack. -/
theorem mem_current_of_findTag {s : StackSet ι ℓ α σ δ} (hs : s.WellFormed) {w : α}
    (h : findTag w s = some s.currentTag) : w ∈ Stack.integrate' s.current.workspace.stack := by
  rwa [findTag_eq_some hs, houses_iff_mem_orderOf hs, orderOf, stackOf_currentTag] at h

/-- Viewing a workspace and focusing a window there: no order changes. -/
theorem orderOf_focusWindow_view {s : StackSet ι ℓ α σ δ} (hs : s.WellFormed) (i : ι) (w : α) (t : ι) :
    orderOf t (focusWindow w (view i s)) = orderOf t s := by
  rw [orderOf_focusWindow (hs.view i), orderOf, stackOf_view hs, ← orderOf]

/-- It makes the screen of the workspace the current one, if it is displayed. -/
theorem shown_focusWindow_view {s : StackSet ι ℓ α σ δ} (hs : s.WellFormed)
    {sc : Screen ι ℓ α σ δ} (hsc : sc ∈ s.screens) {w : α}
    (hw : findTag w s = some sc.workspace.tag) :
    shown (focusWindow w (view sc.workspace.tag s)).current = shown sc := by
  have hs' := hs.view sc.workspace.tag
  have hcur : (view sc.workspace.tag s).currentTag = sc.workspace.tag :=
    congrArg (fun x => x.2.2) (shown_current_view hs hsc)
  have hview := findTag_of_orders hs hs' (fun t => by rw [orderOf, stackOf_view hs, ← orderOf]) w
  have hmem := mem_current_of_findTag hs' (hview.trans (hw.trans (congrArg some hcur.symm)))
  exact ((shown_focusWindow hs' (current_mem_screens _) hmem).2).trans (shown_current_view hs hsc)

end Kept

/-! ## Changing the focus only -/

/-- The screens display the same workspaces, all of them with the same layout and order. -/
structure SameOrders (s s' : StackSet ι ℓ α σ δ) : Prop where
  shown : (s'.screens.map shown).Perm (s.screens.map shown)
  labels : (s'.workspaces.map label).Perm (s.workspaces.map label)
  orders : ∀ t, orderOf t s' = orderOf t s

namespace SameOrders

variable {s s' s'' : StackSet ι ℓ α σ δ}

theorem refl (s : StackSet ι ℓ α σ δ) : SameOrders s s :=
  ⟨List.Perm.refl _, List.Perm.refl _, fun _ => rfl⟩

theorem symm (h : SameOrders s s') : SameOrders s' s :=
  ⟨h.shown.symm, h.labels.symm, fun t => (h.orders t).symm⟩

theorem trans (h : SameOrders s s') (h' : SameOrders s' s'') : SameOrders s s'' :=
  ⟨h'.shown.trans h.shown, h'.labels.trans h.labels, fun t => (h'.orders t).trans (h.orders t)⟩

/-- Each screen is there again, with the workspace it displays. -/
theorem exists_screen (h : SameOrders s s') (hs : s.WellFormed) (hs' : s'.WellFormed)
    {sc' : Screen ι ℓ α σ δ} (hsc' : sc' ∈ s'.screens) : ∃ sc ∈ s.screens,
      StackSet.shown sc = StackSet.shown sc' ∧ label sc.workspace = label sc'.workspace
        ∧ Stack.integrate' sc.workspace.stack = Stack.integrate' sc'.workspace.stack := by
  obtain ⟨sc, hsc, hshown⟩ := List.mem_map.mp (h.shown.mem_iff.mp (List.mem_map_of_mem hsc'))
  have htag : sc.workspace.tag = sc'.workspace.tag := congrArg (fun x => x.2.2) hshown
  have hws' := mem_workspaces_of_mem_screens hsc'
  have hws := mem_workspaces_of_mem_screens hsc
  obtain ⟨ws, hmem, hlabel⟩ := List.mem_map.mp (h.labels.mem_iff.mp (List.mem_map_of_mem hws'))
  have hsame : ws = sc.workspace :=
    hs.workspace_eq hmem hws ((congrArg Prod.fst hlabel).trans htag.symm)
  have horder := h.orders sc.workspace.tag
  rw [orderOf, htag, stackOf_eq hs'.tags_nodup hws', ← htag, orderOf,
    stackOf_eq hs.tags_nodup hws] at horder
  exact ⟨sc, hsc, hshown, hsame ▸ hlabel, horder.symm⟩

end SameOrders

/-- Viewing an empty displayed workspace leaves nothing focused. -/
theorem view_empty [DecidableEq σ] {s : StackSet ι ℓ α σ δ} (hs : s.WellFormed)
    {sc : Screen ι ℓ α σ δ} (hsc : sc ∈ s.screens) (hempty : sc.workspace.stack = none) :
    (view sc.workspace.tag s).peek = none ∧ (view sc.workspace.tag s).current.screen = sc.screen := by
  have hshown := shown_current_view hs hsc
  have htag : (view sc.workspace.tag s).currentTag = sc.workspace.tag :=
    congrArg (fun x => x.2.2) hshown
  have hstack := stackOf_currentTag (view sc.workspace.tag s)
  rw [htag, stackOf_view hs, stackOf_eq hs.tags_nodup (mem_workspaces_of_mem_screens hsc),
    hempty] at hstack
  refine ⟨?_, congrArg Prod.fst hshown⟩
  rw [peek, withStack, ← hstack]

/-- Viewing a displayed workspace. -/
theorem sameOrders_view [DecidableEq σ] {s : StackSet ι ℓ α σ δ} (hs : s.WellFormed)
    {sc : Screen ι ℓ α σ δ} (hsc : sc ∈ s.screens) : SameOrders s (view sc.workspace.tag s) where
  shown := shown_view_perm hs hsc
  labels := (rearranged_view hs _).labels
  orders t := by rw [orderOf, orderOf, stackOf_view hs]

/-- Focusing a displayed window. -/
theorem sameOrders_focusWindow [DecidableEq α] [DecidableEq σ] {s : StackSet ι ℓ α σ δ}
    (hs : s.WellFormed) {sc : Screen ι ℓ α σ δ} (hsc : sc ∈ s.screens) {w : α}
    (hw : w ∈ Stack.integrate' sc.workspace.stack) : SameOrders s (focusWindow w s) where
  shown := (shown_focusWindow hs hsc hw).1
  labels := (rearranged_focusWindow hs w).labels
  orders t := orderOf_focusWindow hs w t

end StackSet

end XmonadWayland
