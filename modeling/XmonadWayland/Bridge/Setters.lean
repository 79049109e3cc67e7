import XmonadWayland.Bridge.Unplaced

/-!
# XmonadWayland.Bridge.Setters

The two setters exactly.  A call concerns one window (`Addresses`); what it makes of the record and
of the compositor's view follows from its arguments, from the outputs there are and from where
the window stood before (`Seen`).
-/

namespace XmonadWayland.Bridge

/-! ## Calls concern one window -/

/-- Only records of the id are changed, and only what they are allowed to change of a record;
requests are about its window. -/
structure Addresses (id : Nat) (s s' : State) : Prop where
  told : ∃ (f : Window → Window) (requests : List Request),
    (∀ w, (f w).id = w.id ∧ (f w).closed = w.closed ∧ (f w).node = w.node)
    ∧ (∀ r ∈ requests, ∀ i, i ≠ id → ∀ v : View, v.ask i r = v)
    ∧ s' = send requests (modifyWindow id f s)

namespace Addresses

variable {id : Nat} {s s' s'' : State}

theorem refl (s : State) : Addresses id s s := by
  refine ⟨fun w => w, [], fun _ => ⟨rfl, rfl, rfl⟩, nofun, ?_⟩
  simp [send, modifyWindow]

/-- Telling a window rewrites its record under its id. -/
theorem tell {f : Window → Window} {requests : List Request}
    (hf : ∀ w, (f w).id = w.id ∧ (f w).closed = w.closed ∧ (f w).node = w.node)
    (hr : ∀ r ∈ requests, ∀ i, i ≠ id → ∀ v : View, v.ask i r = v) (s : State) :
    Addresses id s (send requests (modifyWindow id f s)) := ⟨f, requests, hf, hr, rfl⟩

theorem trans (h : Addresses id s s') (h' : Addresses id s' s'') : Addresses id s s'' := by
  obtain ⟨f, requests, hf, hr, rfl⟩ := h
  obtain ⟨g, requests', hg, hr', rfl⟩ := h'
  refine ⟨g ∘ f, requests ++ requests', fun w => ?_, fun r hmem =>
    (List.mem_append.mp hmem).elim (hr r) (hr' r), ?_⟩
  · obtain ⟨hid, hclosed, hnode⟩ := hf w
    obtain ⟨hid', hclosed', hnode'⟩ := hg (f w)
    exact ⟨hid'.trans hid, hclosed'.trans hclosed, hnode'.trans hnode⟩
  · have hcompose : (s.windows.map fun w => if w.id = id then f w else w).map
        (fun w => if w.id = id then g w else w)
        = s.windows.map fun w => if w.id = id then g (f w) else w := by
      rw [List.map_map]
      refine List.map_congr_left fun w _ => ?_
      simp only [Function.comp_apply]
      by_cases hid : w.id = id
      · simp [hid, (hf w).1]
      · simp [hid]
    simp only [send, modifyWindow, List.append_assoc, hcompose, Function.comp_apply]

end Addresses

/-- What a call about another window leaves alone. -/
structure Beside (i : Nat) (s s' : State) : Prop where
  placeable : Placeable s → Placeable s'
  window : findWindow i s' = findWindow i s
  outputs : s'.outputs = s.outputs
  layer : layerHasFocus s' = layerHasFocus s
  locked : s'.locked = s.locked
  requests : ∃ extra, s'.requests = s.requests ++ extra
    ∧ ∀ v : View, extra.foldl (View.ask i) v = v

namespace Beside

variable {i : Nat} {s s' s'' : State}

theorem refl (i : Nat) (s : State) : Beside i s s :=
  ⟨fun h => h, rfl, rfl, rfl, rfl, [], (List.append_nil _).symm, fun _ => rfl⟩

theorem trans (h : Beside i s s') (h' : Beside i s' s'') : Beside i s s'' := by
  obtain ⟨extra, heq, hfree⟩ := h.requests
  obtain ⟨extra', heq', hfree'⟩ := h'.requests
  exact ⟨fun hp => h'.placeable (h.placeable hp), h'.window.trans h.window,
    h'.outputs.trans h.outputs, h'.layer.trans h.layer, h'.locked.trans h.locked, extra ++ extra',
    by rw [heq', heq, List.append_assoc],
    fun v => by rw [List.foldl_append, hfree v, hfree' v]⟩

end Beside

/-- What no call changes. -/
theorem Addresses.kept {id : Nat} {s s' : State} (h : Addresses id s s') :
    (Placeable s → Placeable s') ∧ s'.outputs = s.outputs ∧ layerHasFocus s' = layerHasFocus s
      ∧ s'.locked = s.locked := by
  obtain ⟨f, requests, -, -, rfl⟩ := h
  exact ⟨fun hp => ⟨hp.manage, hp.ok, hp.outputs⟩, rfl, rfl, rfl⟩

/-- A call to another window leaves this one. -/
theorem Addresses.beside {i id : Nat} {s s' : State} (h : Addresses id s s') (hne : i ≠ id) :
    Beside i s s' := by
  obtain ⟨f, requests, hf, hr, rfl⟩ := h
  refine ⟨fun hp => ⟨hp.manage, hp.ok, hp.outputs⟩, ?_, rfl, rfl, rfl, requests, rfl, fun v =>
    foldl_of_fixed fun r hmem => hr r hmem i hne v⟩
  refine (findWindow_modifyWindow (fun w => ⟨(hf w).1, (hf w).2.1⟩) i id s).trans ?_
  cases hw : findWindow i s with
  | none => rfl
  | some w => rw [Option.map_some, if_neg fun heq => hne ((findWindow_some hw).2.1.symm.trans heq)]

/-! ## Where a window stands -/

/-- The compositor's view is what the record says, given the outputs there are. -/
structure Seen (live : List Nat) (w : Window) (v : View) : Prop where
  output : v.output = if w.fullscreenOutput ∈ live then some w.fullscreenOutput else none
  informed : v.informed = decide (w.fullscreenOutput ≠ 0)
  owed : v.undefined = true → w.exitedFullscreen = true ∨ w.fullscreenOutput ≠ 0

theorem Seen.congr {live : List Nat} {w w' : Window} {v v' : View} (h : Seen live w v)
    (hfull : w'.fullscreenOutput = w.fullscreenOutput)
    (hexited : w'.exitedFullscreen = w.exitedFullscreen) (houtput : v'.output = v.output)
    (hinformed : v'.informed = v.informed) (hundefined : v'.undefined = v.undefined) :
    Seen live w' v' := by
  refine ⟨?_, ?_, ?_⟩
  · rw [houtput, hfull, h.output]
  · rw [hinformed, hfull, h.informed]
  · rw [hundefined, hfull, hexited]
    exact h.owed

/-- The output a call makes its window fullscreen on, 0 if it does not. -/
def Placing.goal (c : Placing) (live : List Nat) : Nat :=
  if c.fullscreen ∧ c.outputId ∈ live then c.outputId else 0

/-- The record after the mode is set. -/
def Placing.moded (c : Placing) (live : List Nat) (w : Window) : Window :=
  { w with
    floating := c.floating
    fullscreenOutput := c.goal live
    exitedFullscreen := w.exitedFullscreen || decide (c.goal live = 0 ∧ w.fullscreenOutput ≠ 0) }

/-- What the compositor is told of the mode. -/
def modeRequests (id old new : Nat) : List Request :=
  if new = old then []
  else if new = 0 then [.exitFullscreen id, .informNotFullscreen id]
  else [.fullscreen id new, .informFullscreen id]

/-- The record after its geometry is set. -/
def Placing.settled (c : Placing) (live : List Nat) (layer : Bool) (w : Window) : Window :=
  ((c.moded live w).placed c.visible c.x c.y c.width c.height (c.focused && !layer)).restored

/-- What the compositor is told of the geometry. -/
def geometryRequests (id : Nat) (w : Window) : List Request :=
  (if w.proposes then [.proposeDimensions id w.width w.height] else [])
    ++ if w.restores then [.setPosition id w.x w.y] else []

def Placing.sent (c : Placing) (live : List Nat) (layer : Bool) (w : Window) : List Request :=
  .setTiled c.id (if c.floating then 0 else 15)
    :: modeRequests c.id w.fullscreenOutput (c.goal live)
    ++ geometryRequests c.id
      ((c.moded live w).placed c.visible c.x c.y c.width c.height (c.focused && !layer))

section Exact

variable {c : Placing} {s : State} {w : Window}

/-- The output a call aims at is live. -/
theorem goal_mem {live : List Nat} (h : c.goal live ≠ 0) : c.goal live ∈ live := by
  unfold Placing.goal at h ⊢
  split at h
  · next hgo => rw [if_pos hgo]; exact hgo.2
  · contradiction

/-- The outputs a call may use. -/
theorem goal_eq (hs : Placeable s) (c : Placing) :
    (!c.fullscreen || !s.outputs.any fun output => output.id = c.outputId && !output.removed)
      = decide (c.goal (liveOutputs s) = 0) := by
  have hlive : (s.outputs.any fun output => output.id = c.outputId && !output.removed)
      = decide (c.outputId ∈ liveOutputs s) := by
    rw [Bool.eq_iff_iff, decide_eq_true_eq, mem_liveOutputs]
    simp
  rw [hlive, Placing.goal]
  by_cases hgo : c.fullscreen = true ∧ c.outputId ∈ liveOutputs s
  · obtain ⟨output, hmem, hid, -⟩ := mem_liveOutputs.mp hgo.2
    have hpos : c.outputId ≠ 0 := hid ▸ hs.outputs output hmem
    rw [if_pos hgo]
    simp [hgo.1, hgo.2, hpos]
  · rw [if_neg hgo]
    simpa [or_iff_not_imp_left] using hgo

/-- The mode of a window. -/
theorem sets_moded (hs : Placeable s) (hw : findWindow c.id s = some w) :
    Sets c.id w (c.moded (liveOutputs s) w) s
      (xwSetMode c.id c.outputId c.floating c.fullscreen s)
      (.setTiled c.id (if c.floating then 0 else 15)
        :: modeRequests c.id w.fullscreenOutput (c.goal (liveOutputs s))) := by
  have hid := (findWindow_some hw).2.1
  have htiled := sets_tellWindow (fun w => { w with floating := c.floating })
    (fun _ => ⟨rfl, rfl, rfl⟩) hs hw [.setTiled c.id (if c.floating then 0 else 15)]
  have heq : xwSetMode c.id c.outputId c.floating c.fullscreen s
      = applyFullscreen w c.outputId c.fullscreen
        (send [.setTiled c.id (if c.floating then 0 else 15)]
          (modifyWindow c.id (fun w => { w with floating := c.floating }) s)) := by
    rw [xwSetMode, requireManage_eq hs, hw]
    simp only [hid]
  have hgoal := goal_eq hs c
  rw [heq]
  unfold applyFullscreen
  simp only [hid]
  rw [show (send [.setTiled c.id (if c.floating then 0 else 15)]
    (modifyWindow c.id (fun w => { w with floating := c.floating }) s)).outputs
      = s.outputs from rfl, hgoal]
  split
  · next hleave =>
    rw [decide_eq_true_eq] at hleave
    split
    · next hfull =>
      have hsets := htiled.trans (sets_tellWindow
        (fun w => { w with fullscreenOutput := 0, exitedFullscreen := true })
        (fun _ => ⟨rfl, rfl, rfl⟩) htiled.placeable htiled.window
        [.exitFullscreen c.id, .informNotFullscreen c.id])
      have hmoded : c.moded (liveOutputs s) w = { w with
          floating := c.floating, fullscreenOutput := 0, exitedFullscreen := true } := by
        simp [Placing.moded, hleave, hfull]
      rw [hmoded, hleave, modeRequests, if_neg (Ne.symm hfull), if_pos rfl]
      exact hsets
    · next hfull =>
      rw [not_not] at hfull
      have hmoded : c.moded (liveOutputs s) w = { w with floating := c.floating } := by
        simp [Placing.moded, hleave, hfull]
      rw [hmoded, hleave, modeRequests, if_pos hfull.symm]
      exact htiled
  · next hgo =>
    rw [decide_eq_true_eq] at hgo
    have hnumber : c.goal (liveOutputs s) = c.outputId := by
      unfold Placing.goal at hgo ⊢
      split at hgo
      · next h => rw [if_pos h]
      · contradiction
    rw [hnumber] at hgo ⊢
    split
    · next hother =>
      have hsets := htiled.trans (sets_tellWindow
        (fun w => { w with fullscreenOutput := c.outputId })
        (fun _ => ⟨rfl, rfl, rfl⟩) htiled.placeable htiled.window
        [.fullscreen c.id c.outputId, .informFullscreen c.id])
      have hmoded : c.moded (liveOutputs s) w = { w with
          floating := c.floating, fullscreenOutput := c.outputId } := by
        simp [Placing.moded, hnumber, hgo]
      rw [hmoded, modeRequests, if_neg (Ne.symm hother), if_neg hgo]
      exact hsets
    · next hsame =>
      rw [not_not] at hsame
      have hmoded : c.moded (liveOutputs s) w = { w with floating := c.floating } := by
        simp [Placing.moded, hnumber, ← hsame]
      rw [hmoded, modeRequests, if_pos hsame.symm]
      exact htiled

/-- Applying fullscreen addresses one window. -/
theorem addresses_applyFullscreen {id : Nat} (hid : w.id = id) (outputId : Nat) (fullscreen : Bool)
    (s : State) : Addresses id s (applyFullscreen w outputId fullscreen s) := by
  subst hid
  unfold applyFullscreen
  simp only
  split
  · split
    · refine .tell ?_ (fun r hr i hne v => ?_) s
      · exact fun _ => ⟨rfl, rfl, rfl⟩
      · simp only [List.mem_cons, List.not_mem_nil, or_false] at hr
        rcases hr with rfl | rfl <;> simp [View.ask, hne.symm]
    · exact .refl s
  · split
    · refine .tell ?_ (fun r hr i hne v => ?_) s
      · exact fun _ => ⟨rfl, rfl, rfl⟩
      · simp only [List.mem_cons, List.not_mem_nil, or_false] at hr
        rcases hr with rfl | rfl <;> simp [View.ask, hne.symm]
    · exact .refl s

/-- Setting the mode addresses one window. -/
theorem addresses_xwSetMode (hs : Placeable s) (id outputId : Nat) (floating fullscreen : Bool) :
    Addresses id s (xwSetMode id outputId floating fullscreen s) := by
  rw [xwSetMode, requireManage_eq hs]
  split
  · exact .refl s
  · next w hw =>
    have hid := (findWindow_some hw).2.1
    refine Addresses.trans ?_ (addresses_applyFullscreen hid outputId fullscreen _)
    rw [hid]
    refine .tell ?_ (fun r hr i hne v => ?_) s
    · exact fun _ => ⟨rfl, rfl, rfl⟩
    · rw [List.mem_singleton.mp hr]
      simp [View.ask, hne.symm]

/-- Placing addresses one window. -/
theorem addresses_xwSetWindow (hs : Placeable s) (id : Nat) (visible : Bool)
    (x y width height : Int) (focused : Bool) :
    Addresses id s (xwSetWindow id visible x y width height focused s) := by
  rw [xwSetWindow, requireManage_eq hs]
  split
  · exact .refl s
  · refine .tell (fun w => ?_) (fun r hr i hne v => ?_) s
    · unfold Window.restored
      split <;> exact ⟨rfl, rfl, rfl⟩
    · rcases List.mem_append.mp hr with hr | hr <;> split at hr
      · rw [List.mem_singleton.mp hr]
        simp [View.ask, hne.symm]
      · contradiction
      · rw [List.mem_singleton.mp hr]
        simp [View.ask, hne.symm]
      · contradiction

/-- A placing call addresses its window. -/
theorem addresses_run (hs : Placeable s) (c : Placing) : Addresses c.id s (c.run s) := by
  have hmode := addresses_xwSetMode hs c.id c.outputId c.floating c.fullscreen
  exact hmode.trans (addresses_xwSetWindow (hmode.kept.1 hs) _ _ _ _ _ _ _)

/-- Both setters. -/
theorem sets_settled (hs : Placeable s) (hw : findWindow c.id s = some w) :
    Sets c.id w (c.settled (liveOutputs s) (layerHasFocus s) w) s (c.run s)
      (c.sent (liveOutputs s) (layerHasFocus s) w) := by
  have hmode := sets_moded hs hw
  obtain ⟨-, -, hlayer, -⟩ := (addresses_xwSetMode hs c.id c.outputId c.floating c.fullscreen).kept
  rw [Placing.run, xwSetWindow, requireManage_eq hmode.placeable, hmode.window, ← hlayer]
  simp only
  generalize layerHasFocus (xwSetMode c.id c.outputId c.floating c.fullscreen s) = layer
  refine hmode.trans (sets_tellWindow
    (fun w => (w.placed c.visible c.x c.y c.width c.height (c.focused && !layer)).restored)
    (fun w => ?_) hmode.placeable hmode.window (geometryRequests c.id _))
  unfold Window.restored
  split <;> exact ⟨rfl, rfl, rfl⟩

end Exact

/-! ## What the compositor knows afterwards -/

section Views

variable {c : Placing} {live : List Nat} {w : Window} {v : View}

/-- The view after the mode is set. -/
def Placing.viewed (c : Placing) (live : List Nat) (w : Window) (v : View) : View :=
  (modeRequests c.id w.fullscreenOutput (c.goal live)).foldl (View.ask c.id)
    { v with tiled := if c.floating then 0 else 15 }

/-- The mode is seen as the record has it. -/
theorem seen_moded (h0 : 0 ∉ live) (h : Seen live w v) :
    Seen live (c.moded live w) (c.viewed live w v) := by
  have hmem : c.goal live ≠ 0 → c.goal live ∈ live := goal_mem
  unfold Placing.viewed modeRequests
  by_cases hsame : c.goal live = w.fullscreenOutput
  · rw [if_pos hsame, List.foldl_nil]
    refine ⟨?_, ?_, fun hundefined => ?_⟩
    · simp [Placing.moded, hsame, h.output]
    · simp [Placing.moded, hsame, h.informed]
    · change (w.exitedFullscreen || decide _) = true ∨ c.goal live ≠ 0
      rw [hsame]
      exact (h.owed hundefined).imp_left fun hexited => by rw [hexited, Bool.true_or]
  · rw [if_neg hsame]
    by_cases hleave : c.goal live = 0
    · have hfull : w.fullscreenOutput ≠ 0 := fun hnone => hsame (hleave.trans hnone.symm)
      rw [if_pos hleave]
      refine ⟨?_, ?_, fun _ => Or.inl ?_⟩
      · simp [View.ask, View.leave, Placing.moded, hleave, h0]
      · simp [View.ask, View.leave, Placing.moded, hleave]
      · simp [Placing.moded, hleave, hfull]
    · rw [if_neg hleave]
      refine ⟨?_, ?_, fun _ => Or.inr hleave⟩
      · simp [View.ask, Placing.moded, hmem hleave]
      · simp [View.ask, Placing.moded, hleave]

/-- A settled record keeps the view in step. -/
theorem viewed_keeps (c : Placing) (live : List Nat) (w : Window) {v : View}
    (hproposed : v.proposed = false) (hpositioned : v.positioned = false) :
    (c.viewed live w v).tiled = (if c.floating then 0 else 15)
      ∧ (c.viewed live w v).proposed = false ∧ (c.viewed live w v).positioned = false := by
  unfold Placing.viewed modeRequests
  by_cases hsame : c.goal live = w.fullscreenOutput
  · rw [if_pos hsame]
    exact ⟨rfl, hproposed, hpositioned⟩
  · rw [if_neg hsame]
    by_cases hleave : c.goal live = 0
    · rw [if_pos hleave]
      simp [View.ask, View.leave]
    · rw [if_neg hleave]
      simp [View.ask, hproposed, hpositioned]

/-- What the compositor knows of a window when its sequence is answered. -/
structure Shows (c : Placing) (live : List Nat) (w : Window) (v : View) : Prop where
  seen : Seen live w v
  tiled : v.tiled = if c.floating then 0 else 15
  geometry : c.visible = true → c.goal live = 0 →
    v.undefined = false ∧ v.dimensions = some (w.width, w.height)

/-- What no restoring changes. -/
theorem restored_keeps (w : Window) : w.restored.fullscreenOutput = w.fullscreenOutput
    ∧ w.restored.width = w.width ∧ w.restored.height = w.height := by
  unfold Window.restored
  split <;> exact ⟨rfl, rfl, rfl⟩

/-- The geometry of a window that has its mode. -/
theorem shows_restored {w : Window} {v : View} (hnode : w.node = true) (h : Seen live w v)
    (hproposed : v.proposed = false) (hvisible : w.visible = c.visible)
    (hgoal : w.fullscreenOutput = c.goal live) (htiled : v.tiled = if c.floating then 0 else 15) :
    Shows c live w.restored (((geometryRequests c.id w).foldl (View.ask c.id) v).ask c.id
      .manageFinish) := by
  obtain ⟨hfull, hwidth, hheight⟩ := restored_keeps w
  cases hproposes : w.proposes with
  | false =>
      have hrestores : w.restores = false := by simp [Window.restores, hproposes]
      have hsame : (v.undefined && !(v.proposed && v.positioned)) = v.undefined := by
        simp [hproposed]
      have hkept : View.ask c.id v .manageFinish = v := by
        rw [View.ask, hsame]
      rw [geometryRequests, hproposes, hrestores, restored_self hrestores]
      simp only [Bool.false_eq_true, if_false, List.append_nil, List.foldl_nil, hkept]
      refine ⟨h, htiled, fun hv hg => ?_⟩
      simp [Window.proposes, hvisible, hv, hgoal, hg] at hproposes
  | true =>
      obtain ⟨-, hleft⟩ : w.visible = true ∧ w.fullscreenOutput = 0 := by
        simpa [Window.proposes] using hproposes
      have hundefined : v.undefined = true → w.exitedFullscreen = true :=
        fun hv => (h.owed hv).resolve_right fun hne => hne hleft
      rw [geometryRequests, hproposes, if_pos rfl]
      cases hexited : w.exitedFullscreen with
      | false =>
          have hrestores : w.restores = false := by simp [Window.restores, hexited]
          have hdefined : v.undefined = false := Bool.eq_false_iff.mpr fun hv => by
            rw [hundefined hv] at hexited
            contradiction
          rw [hrestores, restored_self hrestores]
          simp only [Bool.false_eq_true, if_false, List.append_nil, List.foldl_cons, List.foldl_nil]
          refine ⟨h.congr rfl rfl ?_ ?_ ?_, ?_, fun _ _ => ⟨?_, ?_⟩⟩ <;>
            simp [View.ask, hdefined, htiled]
      | true =>
          have hrestores : w.restores = true := by
            simp [Window.restores, hproposes, hexited, hnode]
          rw [hrestores, if_pos rfl]
          simp only [List.cons_append, List.nil_append, List.foldl_cons, List.foldl_nil]
          refine ⟨⟨?_, ?_, ?_⟩, ?_, fun _ _ => ⟨?_, ?_⟩⟩
          · simp [View.ask, h.output, hfull]
          · simp [View.ask, h.informed, hfull]
          · simp [View.ask]
          · simp [View.ask, htiled]
          · simp [View.ask]
          · simp [View.ask, hwidth, hheight]

/-- Both setters, and the answer. -/
theorem shows_settled (h0 : 0 ∉ live) (h : Seen live w v) (hnode : w.node = true)
    (hproposed : v.proposed = false) (hpositioned : v.positioned = false) (layer : Bool) :
    Shows c live (c.settled live layer w)
      (((c.sent live layer w).foldl (View.ask c.id) v).ask c.id .manageFinish) := by
  obtain ⟨htiled, hproposed', -⟩ := viewed_keeps c live w hproposed hpositioned
  have hview : (c.sent live layer w).foldl (View.ask c.id) v
      = (geometryRequests c.id ((c.moded live w).placed c.visible c.x c.y c.width c.height
          (c.focused && !layer))).foldl (View.ask c.id) (c.viewed live w v) := by
    rw [Placing.sent, List.cons_append, List.foldl_cons, List.foldl_append, Placing.viewed]
    simp [View.ask]
  rw [hview]
  refine shows_restored hnode ?_ hproposed' rfl rfl htiled
  exact ⟨(seen_moded h0 h).output, (seen_moded h0 h).informed, (seen_moded h0 h).owed⟩

end Views

end XmonadWayland.Bridge
