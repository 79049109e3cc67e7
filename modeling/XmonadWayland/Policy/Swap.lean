import XmonadWayland.Policy.Picker
import XmonadWayland.Policy.Mode
import Mathlib.Logic.Equiv.Basic

/-!
# XmonadWayland.Policy.Swap

What `swapToWindow` does to the order of the current workspace.  It exchanges the
selected window with the head of the order, not with the focused one, and it turns the
windows between them around: they become the `up` of the new stack, which is stored
nearest first, in the order of the list.  So two windows change places and nothing else
does only when the head has the focus and the selected window is the head or the next one.
-/

namespace XmonadWayland

open StackSet

/-- `f` and `w` of the current workspace exchange their places and `w` gets the focus; a
window that is not there, and `f` itself, change nothing; no other workspace, screen or
layout changes. -/
structure SwapsExactly (f w : WindowId) (s s' : WindowSet) : Prop where
  absent : w ∉ s.index → s' = s
  self : w = f → s' = s
  focus : w ∈ s.index → s'.peek = some w
  order : w ∈ s.index → s'.index = s.index.map (Equiv.swap f w)
  others : s' = { s with current := { s.current with
    workspace := { s.current.workspace with stack := s'.current.workspace.stack } } }

/-- The window is not in the order, or the head has the focus and the window is the head
or the one after it. -/
def NextToHead (f w : WindowId) (order : List WindowId) : Prop :=
  w ∉ order ∨ order.head? = some f ∧ (w = f ∨ order[1]? = some w)

/-- A window that is not there cannot be selected. -/
theorem swapToWindow_absent {w : WindowId} {s : WindowSet} (h : w ∉ s.index) :
    swapToWindow w s = s := by
  unfold swapToWindow
  split
  · next head rest hindex =>
    rw [hindex, List.mem_cons, not_or] at h
    rw [if_pos (Ne.symm h.1), List.idxOf?_eq_none_iff.mpr h.2]
  · rfl

/-- Only the current stack can change. -/
theorem swapToWindow_others (w : WindowId) (s : WindowSet) :
    swapToWindow w s = { s with current := { s.current with workspace := { s.current.workspace with
      stack := (swapToWindow w s).current.workspace.stack } } } := by
  unfold swapToWindow
  split
  · split
    · split <;> rfl
    · rfl
  · rfl

/-- The order after a swap: the windows before the selected one are turned around. -/
theorem index_swapToWindow {w : WindowId} {s : WindowSet} (hmem : w ∈ s.index)
    (h : s.index.head? ≠ some w) : ∃ head above below, s.index = head :: (above ++ w :: below)
      ∧ (swapToWindow w s).index = above.reverse ++ w :: head :: below := by
  obtain ⟨head, above, below, hindex, hstack⟩ := stack_swapToWindow hmem h
  refine ⟨head, above, below, hindex, ?_⟩
  rw [index_eq, hstack]
  rfl

/-- The order is the old one with two windows exchanged iff the head was one of them and
the selected window came right after it. -/
theorem order_swap_iff {f w head : WindowId} {above below : List WindowId}
    (hnd : (head :: (above ++ w :: below)).Nodup) :
    above.reverse ++ w :: head :: below
        = (head :: (above ++ w :: below)).map (Equiv.swap f w) ↔ head = f ∧ above = [] := by
  obtain ⟨hhead, hrest⟩ := List.nodup_cons.mp hnd
  have hw : head ≠ w := fun heq => hhead (heq ▸ by simp)
  constructor
  · intro horder
    rcases List.eq_nil_or_concat above with rfl | ⟨front, a, rfl⟩
    · -- The first window is now `w`, which the exchange puts where `f` was.
      have hfirst : w = Equiv.swap f w head := by simpa using (List.cons.inj horder).1
      refine ⟨(Equiv.swap f w).injective ?_, rfl⟩
      rw [← hfirst, Equiv.swap_apply_left]
    · -- The first window is now the last of those above `w`.
      have hfirst : a = Equiv.swap f w head := by
        simpa using congrArg List.head? horder
      have ha : a ≠ w := by
        rintro rfl
        simp [List.nodup_append] at hrest
      have hne : a ≠ head := by
        rintro rfl
        exact hhead (by simp)
      rcases eq_or_ne head f with rfl | hf
      · rw [Equiv.swap_apply_left] at hfirst
        exact absurd hfirst ha
      · rw [Equiv.swap_apply_of_ne_of_ne hf hw] at hfirst
        exact absurd hfirst hne
  · rintro ⟨rfl, rfl⟩
    have hkeep : below.map (Equiv.swap head w) = below := by
      refine List.map_congr_left (g := id) (fun x hx => ?_) |>.trans (List.map_id _)
      have hxh : x ≠ head := fun heq => hhead (by simp [← heq, hx])
      have hxw : x ≠ w := fun heq => (List.nodup_cons.mp hrest).1 (heq ▸ hx)
      exact Equiv.swap_apply_of_ne_of_ne hxh hxw
    simp [hkeep]

/-- `swapToWindow` exchanges exactly the focused and the selected window iff the selected
one is not there, or the head has the focus and the selected window is next to it. -/
theorem swapsExactly_swapToWindow {s : WindowSet} (hnd : s.windows.Nodup) {f : WindowId}
    (hf : s.peek = some f) (w : WindowId) :
    SwapsExactly f w s (swapToWindow w s) ↔ NextToHead f w s.index := by
  have hnd : s.index.Nodup := by
    rw [index_eq]
    exact (List.nodup_flatMap.mp hnd).1 _ s.current_mem_workspaces
  have hmemf : f ∈ s.index := index_of_peek hf
  by_cases hw : w ∈ s.index
  · by_cases hhead : s.index.head? = some w
    · have hsame : swapToWindow w s = s := swapToWindow_head hhead
      rw [hsame]
      constructor
      · intro h
        have heq : some f = some w := hf.symm.trans (h.focus hw)
        rw [Option.some.injEq] at heq
        exact Or.inr ⟨heq ▸ hhead, Or.inl heq.symm⟩
      · intro h
        obtain ⟨hheadf, -⟩ := h.resolve_left (not_not.mpr hw)
        obtain rfl : w = f := Option.some.inj (hhead.symm.trans hheadf)
        exact ⟨fun _ => rfl, fun _ => rfl, fun _ => hf, fun _ => by simp, rfl⟩
    · obtain ⟨head, above, below, hindex, hnew⟩ := index_swapToWindow hw hhead
      rw [hindex] at hnd hhead
      have horder := order_swap_iff (f := f) hnd
      constructor
      · intro h
        have hlist := h.order hw
        rw [hnew, hindex] at hlist
        obtain ⟨rfl, rfl⟩ := horder.mp hlist
        exact Or.inr ⟨by rw [hindex]; rfl, Or.inr (by rw [hindex]; rfl)⟩
      · intro h
        obtain ⟨hheadf, hplace⟩ := h.resolve_left (not_not.mpr hw)
        obtain rfl : head = f := by simpa [hindex] using hheadf
        have hne : w ≠ head := fun heq => hhead (by rw [heq]; rfl)
        have habove : above = [] := by
          have hnext := hplace.resolve_left hne
          cases above with
          | nil => rfl
          | cons a above =>
              obtain rfl : a = w := by simpa [hindex] using hnext
              simp at hnd
        refine ⟨fun hn => absurd hw hn, fun heq => absurd heq hne, fun _ => ?_, fun _ => ?_,
          swapToWindow_others w s⟩
        · exact peek_swapToWindow hw (by rwa [hindex])
        · rw [hnew, hindex]
          exact horder.mpr ⟨rfl, habove⟩
  · have hsame : swapToWindow w s = s := swapToWindow_absent hw
    refine iff_of_true ?_ (Or.inl hw)
    rw [hsame]
    exact ⟨fun _ => rfl, fun _ => rfl, fun hm => absurd hm hw, fun hm => absurd hm hw, rfl⟩

/-! ## The actions -/

/-- The action does what the function does. -/
theorem windowSet_step_swapToWindow (cfg : Config) {p : Policy} (h : Open p) (w : WindowId) :
    (step cfg p (.actionRequested (.swapToWindow w))).windowSet = swapToWindow w p.windowSet :=
  windowSet_step_action cfg (.swapToWindow w) h

/-- So does choosing a letter. -/
theorem windowSet_step_pickCandidate (cfg : Config) {p : Policy} (hs : p.windowSet.WellFormed)
    (hfree : p.sessionLocked = false) {index : Int} {w : WindowId}
    (hw : (candidates p)[index.toNat]? = some w) :
    (step cfg p (.actionRequested (.pickCandidate index))).windowSet
      = swapToWindow w p.windowSet := by
  have hfin := frame_finish (cancelPointer p) (finishPicker index (cancelPointer p)).1
  rw [step, handleEvent_pickCandidate cfg hfree]
  refine hfin.windowSet.trans ?_
  rw [finishPicker_eq, candidates_frame hs (frame_cancelPointer p), hw]
  rfl

/-- **The swap**: it exchanges exactly two windows iff the selected window is not on the
current workspace, or the head of the order has the focus and the selected window is the
head or the next one; so do the action `swapToWindow` and the swap of `pickCandidate`. -/
theorem swapToWindow_exchanges_iff (f w : WindowId) :
    (∀ s : WindowSet, s.windows.Nodup → s.peek = some f →
      (SwapsExactly f w s (swapToWindow w s) ↔ NextToHead f w s.index))
    ∧ ∀ (cfg : Config) (p : Policy), Reachable cfg p → p.sessionLocked = false →
      p.windowSet.peek = some f →
      (p.activeMode ≠ .pickerMode →
        (SwapsExactly f w p.windowSet
            (step cfg p (.actionRequested (.swapToWindow w))).windowSet
          ↔ NextToHead f w p.windowSet.index))
      ∧ ∀ index : Int, (candidates p)[index.toNat]? = some w →
        (SwapsExactly f w p.windowSet
            (step cfg p (.actionRequested (.pickCandidate index))).windowSet
          ↔ NextToHead f w p.windowSet.index) := by
  refine ⟨fun s hnd hf => swapsExactly_swapToWindow hnd hf w, ?_⟩
  intro cfg p h hfree hf
  have hs := (managed_of_reachable h).wellFormed
  have hiff := swapsExactly_swapToWindow hs.windows_nodup hf w
  refine ⟨fun hmode => ?_, fun index hw => ?_⟩
  · rwa [windowSet_step_swapToWindow cfg ⟨hfree, hmode⟩]
  · rwa [windowSet_step_pickCandidate cfg hs hfree hw]

/-- Three windows, the newest one first and focused. -/
def threeWindows : Policy :=
  runEvents defaultConfig [.outputUpsert 1 ⟨0, 0, 800, 600⟩, .windowAdded 10, .windowAdded 20,
    .windowAdded 30] (initialPolicy defaultConfig)

/-- The window after the focused one is selected: the two are exchanged. -/
theorem swapToWindow_exchanges_iff_three :
    SwapsExactly 30 20 threeWindows.windowSet
      (step defaultConfig threeWindows (.actionRequested (.swapToWindow 20))).windowSet := by
  have hindex : threeWindows.windowSet.index = [30, 20, 10] := by decide +kernel
  have hiff := ((swapToWindow_exchanges_iff 30 20).2 defaultConfig threeWindows
    (reachable_runEvents validateConfig_defaultConfig _) (by decide +kernel) (by decide +kernel)).1
    (by decide +kernel)
  exact hiff.mpr (Or.inr (by rw [hindex]; decide))

/-- The last of three windows is selected: the one between them moves to the front's place. -/
theorem swapToWindow_turns_order :
    threeWindows.windowSet.windows.Nodup ∧ threeWindows.windowSet.peek = some 30
      ∧ threeWindows.windowSet.index = [30, 20, 10]
      ∧ (swapToWindow 10 threeWindows.windowSet).index = [20, 10, 30]
      ∧ ¬SwapsExactly 30 10 threeWindows.windowSet (swapToWindow 10 threeWindows.windowSet) := by
  have hindex : threeWindows.windowSet.index = [30, 20, 10] := by decide +kernel
  have hnew : (swapToWindow 10 threeWindows.windowSet).index = [20, 10, 30] := by decide +kernel
  refine ⟨by decide +kernel, by decide +kernel, hindex, hnew, fun h => ?_⟩
  have horder := h.order (by rw [hindex]; decide)
  rw [hnew, hindex] at horder
  revert horder
  decide

end XmonadWayland
