import XmonadWayland.Policy.Target
import XmonadWayland.Policy.Transfer

/-!
# XmonadWayland.Policy.Move

Directional moves of a tiled window.  What the search finds decides between the only
outcomes: nothing happens, the window changes places with a tile of its workspace, or its
family goes to the workspace another output displays, which becomes current.
-/

namespace XmonadWayland

open StackSet

/-! ## The outcomes -/

/-- The window changes places with one other tiled window of the current workspace. -/
structure ExchangedWith (p : Policy) (w other : WindowId) (s' : WindowSet) : Prop where
  different : other ≠ w
  mem : other ∈ p.windowSet.index
  tiled : isFloat p other = false
  order : s'.index = p.windowSet.index.map (Equiv.swap w other)
  others : s' = { p.windowSet with current := { p.windowSet.current with
    workspace := { p.windowSet.current.workspace with stack := s'.current.workspace.stack } } }

/-- The family of the window goes to the workspace that another output displays, and that
output becomes current. -/
structure TransferredTo (p : Policy) (w : WindowId) (sc : OutputScreen) (s' : WindowSet) : Prop where
  mem : sc ∈ p.windowSet.screens
  output : ∃ oid, sc.screen = some oid
  another : sc.screen ≠ p.windowSet.current.screen
  current : s'.current.screen = sc.screen ∧ s'.currentTag = sc.workspace.tag
  moved : FamilyMoved (familyOf p w) sc.workspace.tag p.windowSet s'

/-- The three outcomes of a directional move. -/
inductive Outcome (p : Policy) (w : WindowId) (s' : WindowSet) : Prop
  | unchanged : s' = p.windowSet → Outcome p w s'
  | exchanged (other : WindowId) : ExchangedWith p w other s' → Outcome p w s'
  | transferred (sc : OutputScreen) : TransferredTo p w sc s' → Outcome p w s'

/-- An exchange is not the identity. -/
theorem ExchangedWith.ne {p : Policy} {w other : WindowId} {s' : WindowSet}
    (h : ExchangedWith p w other s') (hw : w ∈ p.windowSet.index) : s' ≠ p.windowSet := by
  intro heq
  have horder := h.order
  rw [heq] at horder
  have hmap : p.windowSet.index.map id = p.windowSet.index.map (Equiv.swap w other) := by
    rw [List.map_id, ← horder]
  have hfix := List.map_inj_left.mp hmap w hw
  rw [Equiv.swap_apply_left] at hfix
  exact h.different hfix.symm

/-- A transfer changes the current workspace. -/
theorem TransferredTo.currentTag_ne {p : Policy} {w : WindowId} {sc : OutputScreen} {s' : WindowSet}
    (h : TransferredTo p w sc s') (hs : p.windowSet.WellFormed) :
    s'.currentTag ≠ p.windowSet.currentTag := by
  intro heq
  have hsame := hs.screen_eq_of_tag h.mem p.windowSet.current_mem_screens
    (h.current.2.symm.trans heq)
  exact h.another (hsame ▸ rfl)

/-- An exchange stays on the workspace. -/
theorem ExchangedWith.currentTag_eq {p : Policy} {w other : WindowId} {s' : WindowSet}
    (h : ExchangedWith p w other s') : s'.currentTag = p.windowSet.currentTag := by
  rw [h.others]
  rfl

/-! ## Exchange -/

theorem index_modify' (f : Stack WindowId → Stack WindowId) (s : WindowSet) :
    (modify' f s).index = Stack.integrate' (s.current.workspace.stack.map f) := by
  rw [index_eq, stack_modify']

/-- Exchanging two windows of the current workspace rearranges it. -/
theorem rearranged_exchange {s : WindowSet} (hs : s.WellFormed) {w other : WindowId}
    (hw : s.peek = some w) (hother : other ∈ s.index) :
    Rearranged s (s.modify' (exchange w other)) := by
  have hmem := index_of_peek hw
  refine rearranged_modify' fun st hst => ?_
  rw [index_eq, hst] at hother hmem
  have hnd := hs.stack_nodup s.current_mem_workspaces
  rw [hst] at hnd
  exact integrate_exchange_perm hmem hother hnd

/-- The exchange renames in the current stack and gives the focus back. -/
theorem exchangedWith_focusWindow {p : Policy} (hs : p.windowSet.WellFormed) {w other : WindowId}
    (hw : p.windowSet.peek = some w) (hne : other ≠ w) (hother : other ∈ p.windowSet.index)
    (htiled : isFloat p other = false) : ExchangedWith p w other
      ((p.windowSet.modify' (exchange w other)).focusWindow w) := by
  obtain ⟨st, hst, -⟩ := peek_eq_some.mp hw
  have hs' := (rearranged_exchange hs hw hother).wellFormed hs
  have hmem : other ∈ st.integrate := by rwa [index_eq, hst] at hother
  have hcur : w ∈ Stack.integrate'
      (p.windowSet.modify' (exchange w other)).current.workspace.stack := by
    rw [stack_modify', hst, Option.map_some, Stack.integrate', integrate_exchange]
    exact List.mem_map.mpr ⟨other, hmem, Equiv.swap_apply_right w other⟩
  have hfocused := focusWindow_eq hs' (current_mem_workspaces _) hcur
  rw [view_currentTag] at hfocused
  refine ⟨hne, hother, htiled, ?_, ?_⟩
  · rw [hfocused, index_modify', stack_modify', index_eq, hst]
    simp only [Option.map_some, Stack.integrate', Stack.integrate_refocus, integrate_exchange]
  · rw [hfocused]
    rfl

/-! ## Transfer -/

/-- A move is seen through later steps that change no order. -/
theorem FamilyMoved.of_orders {family : List WindowId} {tag : WorkspaceId} {s s' s'' : WindowSet}
    (h : FamilyMoved family tag s s') (hs' : s'.WellFormed) (hre : Rearranged s' s'')
    (horder : ∀ t, orderOf t s'' = orderOf t s') : FamilyMoved family tag s s'' where
  arrived x hx := (findTag_of_orders hs' (hre.wellFormed hs') horder x).trans (h.arrived x hx)
  stayed x hx := (findTag_of_orders hs' (hre.wellFormed hs') horder x).trans (h.stayed x hx)
  order t := (congrArg _ (horder t)).trans (h.order t)
  windows := hre.windows.trans h.windows

/-- The family arrives, and the screen of the workspace becomes current. -/
theorem transferredTo_transferFamily {tags : List WorkspaceId} {p : Policy}
    (hc : Consistent tags p) {w : WindowId} (hw : p.windowSet.peek = some w) {sc : OutputScreen}
    (hsc : sc ∈ p.windowSet.screens) (hout : ∃ oid, sc.screen = some oid)
    (hne : sc.screen ≠ p.windowSet.current.screen) :
    TransferredTo p w sc (transferFamily w sc.workspace.tag p).windowSet := by
  have hs := hc.wellFormed
  have htag : sc.workspace.tag ∈ p.windowSet.tags :=
    List.mem_map_of_mem (mem_workspaces_of_mem_screens hsc)
  have hmoved := familyMoved_foldr hs htag (family_managed hc (mem_windows_of_peek hw))
  obtain ⟨hsame, hre⟩ := foldr_shiftWin_spec hs sc.workspace.tag (familyOf p w)
  have hs' := hre.wellFormed hs
  have hview := rearranged_view hs' sc.workspace.tag
  have hfocus := hview.trans (rearranged_focusWindow (hview.wellFormed hs') w)
  -- The screens still display what they did when the family has moved.
  obtain ⟨sc', hsc', hshown⟩ := List.mem_map.mp
    (hsame.shown_perm.mem_iff.mpr (List.mem_map_of_mem hsc))
  have htag' : sc'.workspace.tag = sc.workspace.tag := congrArg (fun x => x.2.2) hshown
  have harrived := hmoved.arrived w List.mem_cons_self
  have hcur := shown_focusWindow_view hs' hsc' (harrived.trans (congrArg some htag'.symm))
  rw [htag', hshown] at hcur
  exact {
    mem := hsc
    output := hout
    another := hne
    current := ⟨congrArg Prod.fst hcur, congrArg (fun x => x.2.2) hcur⟩
    moved := hmoved.of_orders hs' hfocus fun t => orderOf_focusWindow_view hs' _ w t }

/-- The window keeps the focus when its family is transferred. -/
theorem peek_transferFamily {tags : List WorkspaceId} {p : Policy} (hc : Consistent tags p)
    {w : WindowId} (hw : p.windowSet.peek = some w) (tag : WorkspaceId) :
    (transferFamily w tag p).windowSet.peek = some w := by
  have hre := (foldr_shiftWin_spec hc.wellFormed tag (familyOf p w)).2
  have hs' := hre.wellFormed hc.wellFormed
  have hview := rearranged_view hs' tag
  exact peek_focusWindow (hview.wellFormed hs')
    (hview.windows.mem_iff.mpr (hre.windows.mem_iff.mpr (mem_windows_of_peek hw)))

/-! ## The move -/

/-- A window found by the search: another one of the same mode, on a displayed workspace. -/
theorem found_window {direction : Direction} {p : Policy} (hs : p.windowSet.WellFormed)
    {w other : WindowId} (hw : p.windowSet.peek = some w)
    (h : Found direction p (.toWindow other)) : other ≠ w ∧ isFloat p other = isFloat p w
      ∧ ∃ sc ∈ p.windowSet.screens, other ∈ Stack.integrate' sc.workspace.stack
        ∧ (sc = p.windowSet.current ∨ ∃ oid, sc.screen = some oid) := by
  cases h with
  | hidden _ hhidden =>
      obtain ⟨-, hmem, hmode, hne⟩ := hiddenNeighbor_spec hs hhidden
      exact ⟨fun heq => hne (heq ▸ hw.symm), (sameMode_iff hw).mp hmode, _,
        p.windowSet.current_mem_screens, hmem, Or.inl rfl⟩
  | window origin q _ _ hq hvis hne hmode _ =>
      obtain ⟨sc, hsc, hout, hmem⟩ := exists_screen_of_placement hs hq hvis
      exact ⟨fun heq => hne (heq ▸ hw.symm), (sameMode_iff hw).mp hmode, sc, hsc, hmem, Or.inr hout⟩

/-- What the handler does with a tiled window. -/
theorem outcome_moveDirection {tags : List WorkspaceId} {p : Policy} (hc : Consistent tags p)
    {w : WindowId} (hw : p.windowSet.peek = some w) (htiled : isFloat p w = false)
    (hfull : (metadataFor p w).windowFullscreen = false) (direction : Direction) :
    Outcome p w (moveDirection direction p).windowSet
      ∧ (moveDirection direction p).windowSet.peek = some w := by
  have hs := hc.wellFormed
  have hfloat : (metadataFor p w).windowFloating = false := htiled
  simp only [moveDirection, hw, hfull, hfloat, Bool.false_eq_true, if_false]
  cases htarget : directionTarget direction p with
  | none => exact ⟨.unchanged rfl, hw⟩
  | some nav =>
      have hfound := found_of_directionTarget htarget
      cases nav with
      | toWindow other =>
          obtain ⟨hne, hmode, sc, hsc, hmem, hout⟩ := found_window hs hw hfound
          have htag := hs.findTag_eq (mem_workspaces_of_mem_screens hsc) hmem
          simp only
          split
          · next hsame =>
            rw [htag, findTag_peek hs hw, Option.some.injEq] at hsame
            have hcur := hs.screen_eq_of_tag hsc p.windowSet.current_mem_screens hsame
            have hindex : other ∈ p.windowSet.index := by rwa [index_eq, ← hcur]
            have hswap := exchangedWith_focusWindow hs hw hne hindex (hmode.trans htiled)
            have hre := rearranged_exchange hs hw hindex
            exact ⟨.exchanged other hswap, peek_focusWindow (hre.wellFormed hs)
              (hre.windows.mem_iff.mpr (mem_windows_of_peek hw))⟩
          · next hother =>
            rw [htag, findTag_peek hs hw] at hother
            have hncur : sc ≠ p.windowSet.current := fun heq => hother (heq ▸ rfl)
            simp only [htag]
            refine ⟨.transferred sc (transferredTo_transferFamily hc hw hsc (hout.resolve_left hncur)
              fun heq => hncur ?_), peek_transferFamily hc hw _⟩
            exact List.inj_on_of_nodup_map hs.screens_nodup hsc p.windowSet.current_mem_screens heq
      | toWorkspace tag =>
          cases hfound with
          | workspace origin sc rect _ _ hsc hne _ hout _ =>
              obtain ⟨oid, hid, -⟩ := Option.bind_eq_some_iff.mp hout
              exact ⟨.transferred sc (transferredTo_transferFamily hc hw hsc ⟨oid, hid⟩ hne),
                peek_transferFamily hc hw _⟩

/-- The outcome is seen through steps that keep windows, layouts and the parents. -/
theorem Outcome.frame {p q : Policy} (hframe : PointerFrame p q) {w : WindowId} {s' : WindowSet}
    (h : Outcome q w s') : Outcome p w s' := by
  have hws := hframe.windowSet
  cases h with
  | unchanged heq => exact .unchanged (heq.trans hws)
  | exchanged other h =>
      refine .exchanged other ⟨h.different, hws ▸ h.mem, ?_, hws ▸ h.order, hws ▸ h.others⟩
      exact (hframe.isFloat other).symm.trans h.tiled
  | transferred sc h =>
      have hmoved := h.moved.congr fun x => (mem_familyOf_frame hframe).symm
      exact .transferred sc ⟨hws ▸ h.mem, h.output, hws ▸ h.another, h.current, hws ▸ hmoved⟩

/-- **Directional moves**: for a tiled window exactly one of the three things happens, the
window keeps the focus, and no window is lost or duplicated. -/
theorem moveDirection_moves {cfg : Config} {p : Policy} (h : Reachable cfg p) (hopen : Open p)
    {w : WindowId} (hw : p.windowSet.peek = some w) (htiled : isFloat p w = false)
    (hfull : (metadataFor p w).windowFullscreen = false) (direction : Direction) :
    let s' := (step cfg p (.actionRequested (.moveDirection direction))).windowSet
    Outcome p w s'
      ∧ (s' = p.windowSet → (∀ other, ¬ExchangedWith p w other s') ∧ ∀ sc, ¬TransferredTo p w sc s')
      ∧ (∀ other, ExchangedWith p w other s' → ∀ sc, ¬TransferredTo p w sc s')
      ∧ s'.peek = some w ∧ s'.windows.Perm p.windowSet.windows := by
  intro s'
  have hprep := frame_preparePointerAction (.moveDirection direction) p
  have hc := (managed_of_reachable h).toConsistent.frame hprep
  have hs' : s' = _ := windowSet_step_action cfg (.moveDirection direction) hopen
  have hw' := hprep.windowSet ▸ hw
  have hs := (managed_of_reachable h).wellFormed
  obtain ⟨houtcome, hpeek⟩ := outcome_moveDirection hc hw'
    ((hprep.isFloat w).trans htiled) ((hprep.fullscreen w).trans hfull) direction
  have hkept := kept_moveDirection hc.wellFormed direction
  refine ⟨hs' ▸ houtcome.frame hprep, fun heq => ⟨fun other hswap => ?_, fun sc hmoved => ?_⟩,
    fun other hswap sc hmoved => ?_, hs' ▸ hpeek, ?_⟩
  · exact hswap.ne (index_of_peek hw) heq
  · exact hmoved.currentTag_ne hs (congrArg _ heq)
  · exact hmoved.currentTag_ne hs hswap.currentTag_eq
  · rw [hs', ← hprep.windowSet]
    exact hkept.windowSet.windows

/-- The newest of two windows is the master: moved to the right, it changes places with the
other one and keeps the focus. -/
theorem moveDirection_moves_two :
    let p := runEvents defaultConfig [.outputUpsert 1 ⟨0, 0, 800, 600⟩, .windowAdded 10,
      .windowAdded 20] (initialPolicy defaultConfig)
    let p' := step defaultConfig p (.actionRequested (.moveDirection .goRight))
    p.windowSet.index = [20, 10] ∧ p'.windowSet.index = [10, 20]
      ∧ p'.windowSet.peek = some 20 ∧ p'.windowSet.windows.Perm p.windowSet.windows := by
  intro p p'
  have hreach : Reachable defaultConfig p := reachable_runEvents validateConfig_defaultConfig _
  have hpeek : p.windowSet.peek = some 20 := by decide +kernel
  have h := moveDirection_moves hreach ⟨by decide +kernel, by decide +kernel⟩ hpeek
    (by decide +kernel) (by decide +kernel) .goRight
  exact ⟨by decide +kernel, by decide +kernel, h.2.2.2⟩

end XmonadWayland
