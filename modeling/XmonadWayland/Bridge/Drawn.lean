import XmonadWayland.Bridge.Presented
import XmonadWayland.Bridge.Stacking

/-!
# XmonadWayland.Bridge.Drawn

What a render sequence draws.  It shows the windows the policy shows, each at the position of its
placement, or at the one that keeps the edges of a resized window in their place, with the
borders of its focus.
-/

namespace XmonadWayland.Bridge

/-! ## Between the sequences -/

section Between

variable {i : Nat} {s s' : State}

/-- The records of window `i` stay as they were placed. -/
structure Stays (i : Nat) (s s' : State) : Prop where
  windows : ∀ w' ∈ s'.windows, w'.id = i → ∃ w ∈ s.windows, w'.stance = w.stance
  nextId : s.nextId ≤ s'.nextId

theorem Stays.refl (i : Nat) (s : State) : Stays i s s := ⟨fun w hw _ => ⟨w, hw, rfl⟩, le_rfl⟩

theorem Stays.trans {s'' : State} (h : Stays i s s') (h' : Stays i s' s'') : Stays i s s'' := by
  refine ⟨fun w'' hw'' hid => ?_, h.nextId.trans h'.nextId⟩
  obtain ⟨w', hw', hstance'⟩ := h'.windows w'' hw'' hid
  obtain ⟨w, hw, hstance⟩ := h.windows w' hw' ((congrArg Stance.id hstance').symm.trans hid)
  exact ⟨w, hw, hstance'.trans hstance⟩

/-- What places nothing leaves the records as placed. -/
theorem Unplaced.stays (h : Unplaced s s') : Stays i s s' := by
  refine ⟨fun w' hw' _ => ?_, h.nextId⟩
  obtain ⟨w, hw, hstance⟩ := h.window hw'
  exact ⟨w, hw, hstance.symm⟩

/-- New windows have new ids. -/
theorem stays_managerWindow (hi : i ≤ s.nextId) (hf : (managerWindow s).failed = false) :
    Stays i s (managerWindow s) := by
  obtain ⟨-, heq⟩ := newId_of_not_failed (s := s) hf
  have hwindows : (managerWindow s).windows = s.windows ++ [{ id := s.nextId + 1 }] := by
    simp only [managerWindow, heq]
  refine ⟨fun w' hw' hid => ?_, by simp only [managerWindow, heq]; omega⟩
  rcases List.mem_append.mp (hwindows ▸ hw') with hw' | hw'
  · exact ⟨w', hw', rfl⟩
  · rw [List.mem_singleton.mp hw'] at hid
    change s.nextId + 1 = i at hid
    omega

/-- So does announcing an output. -/
theorem stays_managerOutput (hf : (managerOutput s).failed = false) :
    Stays i s (managerOutput s) := by
  simp only [managerOutput, failed_attachLayerOutput] at hf
  obtain ⟨-, heq⟩ := newId_of_not_failed (s := s) hf
  simp only [managerOutput, heq]
  refine Stays.trans ?_ (unplaced_attachLayerOutput _ _).stays
  exact ⟨fun w hw _ => ⟨w, hw, rfl⟩, Nat.le_succ _⟩

/-- So does every callback outside a transaction. -/
theorem stays_listen {cb : Callback} (hi : i ≤ s.nextId) (hf : (listen cb s).failed = false) :
    Stays i s (listen cb s) := by
  cases hchanges : changesDisplay cb with
  | false => exact (unplaced_listen s hchanges).stays
  | true =>
      cases cb with
      | managerWindow => exact stays_managerWindow hi hf
      | managerOutput => exact stays_managerOutput hf
      | outputRemoved output => exact ⟨fun w hw _ => ⟨w, hw, rfl⟩, le_rfl⟩
      | _ => contradiction

/-- Callbacks that start no sequence. -/
def startsNothing (cb : Callback) : Prop := cb ≠ .managerManageStart ∧ cb ≠ .managerRenderStart

/-- A callback that starts no transaction only changes the bridge. -/
theorem step_of_startsNothing {cb : Callback} (h : startsNothing cb) (sys : System) :
    sys.step cb = sys.onBridge (listen cb) := by
  cases cb with
  | managerManageStart => exact absurd rfl h.1
  | managerRenderStart => exact absurd rfl h.2
  | _ => rfl

/-- Between two sequences the policy and what has been placed stay. -/
theorem stays_runSystem {between : List Callback} (hbetween : ∀ cb ∈ between, startsNothing cb)
    {sys : System} (hi : i ≤ sys.bridge.nextId)
    (hf : (runSystem between sys).bridge.failed = false) :
    Stays i sys.bridge (runSystem between sys).bridge
      ∧ (runSystem between sys).runtime = sys.runtime := by
  induction between generalizing sys with
  | nil => exact ⟨.refl i _, rfl⟩
  | cons cb cbs ih =>
      have hstep := step_of_startsNothing (hbetween cb List.mem_cons_self) sys
      have hfirst : (sys.step cb).bridge.failed = false := not_failed_runSystem hf
      have hstays : Stays i sys.bridge (sys.step cb).bridge := by
        rw [hstep] at hfirst ⊢
        exact stays_listen hi hfirst
      obtain ⟨hrest, hruntime⟩ := ih (fun cb' hcb' => hbetween cb' (List.mem_cons_of_mem cb hcb'))
        (hi.trans hstays.nextId) hf
      have hsame : (sys.step cb).runtime = sys.runtime := by rw [hstep]; rfl
      exact ⟨hstays.trans hrest, hruntime.trans hsame⟩

end Between

/-! ## Corrected positions -/

section Corrections

/-- The record at a corrected position. -/
def Window.corrected (w : Window) (q : Int × Int) : Window :=
  if w.visible then
    { w with
      x := contentPosition (bounded q.1) w.border
      y := contentPosition (bounded q.2) w.border }
  else w

/-- The correction for window `i`. -/
def correctionFor (i : WindowId) (positions : List (WindowId × Int × Int)) : Option (Int × Int) :=
  (positions.find? fun q => q.1 = i).map Prod.snd

/-- Only the record of a visible window is moved. -/
theorem xwSetRenderPosition_cases {s : State} (hphase : s.phase = .render) (id : Nat) (x y : Int) :
    (∀ w, findWindow id s = some w → w.visible = false) ∧ xwSetRenderPosition id x y s = s
      ∨ (∃ w, findWindow id s = some w ∧ w.visible = true)
        ∧ xwSetRenderPosition id x y s = modifyWindow id (fun w =>
          { w with x := contentPosition x w.border, y := contentPosition y w.border }) s := by
  have hstart : ¬s.phase ≠ .render := not_not.mpr hphase
  cases hw : findWindow id s with
  | none =>
      refine Or.inl ⟨fun w hsome => absurd hsome (Option.some_ne_none w).symm, ?_⟩
      simp only [xwSetRenderPosition, if_neg hstart, hw]
  | some w =>
      simp only [xwSetRenderPosition, if_neg hstart, hw]
      cases hvisible : w.visible with
      | false => exact Or.inl ⟨fun w' hw' => Option.some.inj hw' ▸ hvisible, rfl⟩
      | true => exact Or.inr ⟨⟨w, rfl, hvisible⟩, rfl⟩

/-- A render position is set on its own window. -/
theorem findWindow_xwSetRenderPosition {s : State} (hphase : s.phase = .render) (i : Nat)
    (q : WindowId × Int × Int) :
    findWindow i (xwSetRenderPosition q.1 (bounded q.2.1) (bounded q.2.2) s)
      = (findWindow i s).map fun w => if q.1 = i then w.corrected q.2 else w := by
  have hcorrect := findWindow_modifyWindow (f := fun w => { w with
    x := contentPosition (bounded q.2.1) w.border
    y := contentPosition (bounded q.2.2) w.border }) (fun _ => ⟨rfl, rfl⟩) i q.1 s
  rcases xwSetRenderPosition_cases hphase q.1 (bounded q.2.1) (bounded q.2.2) with
    ⟨hhidden, heq⟩ | ⟨⟨w, hw, hvisible⟩, heq⟩ <;> rw [heq]
  · cases hfound : findWindow i s with
    | none => rfl
    | some w =>
        rw [Option.map_some]
        split
        · next hid =>
          rw [Window.corrected, hhidden w (hid ▸ hfound)]
          rfl
        · rfl
  · refine hcorrect.trans ?_
    cases hfound : findWindow i s with
    | none => rfl
    | some w' =>
        have hid' := (findWindow_some hfound).2.1
        rw [Option.map_some, Option.map_some]
        by_cases hid : q.1 = i
        · rw [hid, hfound] at hw
          rw [if_pos (hid'.trans hid.symm), if_pos hid, Window.corrected, Option.some.inj hw,
            hvisible]
          rfl
        · rw [if_neg fun heq => hid (heq.symm.trans hid'), if_neg hid]

/-- Setting a render position leaves the phase. -/
theorem phase_xwSetRenderPosition {s : State} (hphase : s.phase = .render) (id : Nat) (x y : Int) :
    (xwSetRenderPosition id x y s).phase = .render :=
  (quiet_xwSetRenderPosition id x y s).phase.trans hphase

/-- All corrections: the one for a window moves it. -/
theorem findWindow_corrected (i : Nat) {positions : List (WindowId × Int × Int)}
    (hnodup : (positions.map Prod.fst).Nodup) {s : State} (hphase : s.phase = .render) :
    findWindow i (positions.foldl
        (fun s q => xwSetRenderPosition q.1 (bounded q.2.1) (bounded q.2.2) s) s)
      = (findWindow i s).map fun w => (correctionFor i positions).elim w w.corrected := by
  induction positions generalizing s with
  | nil => simp [correctionFor]
  | cons q positions ih =>
      obtain ⟨hfresh, hrest⟩ := List.nodup_cons.mp hnodup
      rw [List.foldl_cons, ih hrest (phase_xwSetRenderPosition hphase _ _ _),
        findWindow_xwSetRenderPosition hphase, Option.map_map]
      refine Option.map_congr fun w _ => ?_
      by_cases hid : q.1 = i
      · have hnone : positions.find? (fun q => q.1 = i) = none :=
          List.find?_eq_none.mpr fun q' hq' => by
            rw [decide_eq_true_eq]
            exact fun heq => hfresh (hid.trans heq.symm ▸ List.mem_map_of_mem hq')
        simp [correctionFor, hid, hnone]
      · simp [correctionFor, hid]

/-- Each window gets one render position. -/
theorem nodup_renderPointerPositions (p : Policy) :
    ((renderPointerPositions p).map Prod.fst).Nodup := by
  have hkeys : (p.pointerAnchors.keys.filter fun wid => anchorValid wid p).Nodup :=
    (Std.ExtTreeMap.nodup_keys (t := p.pointerAnchors)).filter _
  have hsub : ∀ wids : List WindowId, ((wids.filterMap fun wid => (displayedRect wid p).map
      fun rect => (wid, rect.rectX, rect.rectY)).map Prod.fst).Sublist wids := by
    intro wids
    induction wids with
    | nil => exact List.Sublist.refl _
    | cons wid wids ih =>
        rw [List.filterMap_cons]
        cases displayedRect wid p with
        | none => exact ih.cons wid
        | some rect => exact ih.cons_cons wid
  exact hkeys.sublist (hsub _)

end Corrections

/-! ## A render sequence -/

section Render

variable {i : Nat} {s : State} {w : Window}

/-- What the compositor is told of one record. -/
theorem ask_showRequests (hid : w.id = i) (v : View) :
    ((showRequests s w).foldl (View.ask i) v).hidden = !w.visible
      ∧ (w.visible = true → ((showRequests s w).foldl (View.ask i) v).position = some (w.x, w.y)
        ∧ ((showRequests s w).foldl (View.ask i) v).borders
          = some (w.focused && !s.locked, w.border)) := by
  unfold showRequests
  cases hvisible : w.visible with
  | false => simp [View.ask, hid]
  | true =>
      cases hfloating : w.floating with
      | false => simp [View.ask, hid]
      | true => simp [View.ask, hid]

/-- Showing another window leaves this one's view. -/
theorem ask_other_showRequests (hid : w.id ≠ i) {r : Request} (hr : r ∈ showRequests s w)
    (v : View) : v.ask i r = v := by
  unfold showRequests at hr
  split at hr
  · rw [List.mem_singleton.mp hr]
    simp [View.ask, hid]
  · simp only [List.mem_append, List.mem_cons, List.not_mem_nil, or_false] at hr
    rcases hr with (rfl | rfl | rfl) | hr
    · simp [View.ask, hid]
    · simp [View.ask, hid]
    · simp [View.ask, hid]
    · split at hr
      · rw [List.mem_singleton.mp hr]
        rfl
      · contradiction

/-- Raising a window changes nothing that is known of it. -/
theorem displays_stackRequests (s : State) : ∀ r ∈ stackRequests s, r.displays = false := by
  have hraise : ∀ (w : Option Window) (f : Window → Bool),
      ∀ r ∈ ((w.filter f).map fun w => Request.placeTop w.id).toList, r.displays = false := by
    intro w f r hr
    obtain ⟨w', -, rfl⟩ := Option.map_eq_some_iff.mp (Option.mem_toList.mp hr)
    rfl
  intro r hr
  rcases List.mem_append.mp hr with hr | hr
  · exact hraise _ _ r hr
  · obtain ⟨depth, -, hr⟩ := List.mem_flatMap.mp hr
    rcases List.mem_append.mp hr with hr | hr
    · obtain ⟨w, -, rfl⟩ := List.mem_map.mp hr
      rfl
    · exact hraise _ _ r hr

/-- What is drawn of a window that has its node. -/
theorem ask_renderRequests (hids : (s.windows.map Window.id).Nodup) (hw : findWindow i s = some w)
    (hnode : w.node = true) (v : View) :
    ((renderable s).flatMap (showRequests s) ++ stackRequests s ++ [Request.renderFinish]).foldl
      (View.ask i) v = (showRequests s w).foldl (View.ask i) v := by
  obtain ⟨hmem, hid, hopen⟩ := findWindow_some hw
  have hrenderable : w ∈ renderable s := List.mem_filter.mpr ⟨hmem, by simp [hopen, hnode]⟩
  have hnodup : ((renderable s).map Window.id).Nodup := hids.sublist (List.filter_sublist.map _)
  have hother : ∀ w' ∈ renderable s, w'.id ≠ w.id → ∀ r ∈ showRequests s w', ∀ v : View,
      v.ask i r = v := fun w' _ hne r hr v =>
    ask_other_showRequests (fun heq => hne (heq.trans hid.symm)) hr v
  rw [List.foldl_append, List.foldl_append, foldl_flatMap_keyed hnodup hrenderable hother,
    foldl_of_fixed fun r hr => ask_of_not_displays (displays_stackRequests s r hr)]
  rfl

/-- A render sequence before the policy corrects positions. -/
def sized (sys : System) : System :=
  (sys.onBridge fun s => { s with phase := .render }).deliverAll (sizeEvents sys.bridge.windows)

/-- A render sequence without failure draws the corrected records. -/
theorem runRender_of_succeeds {sys : System} (hf : (runRender sys).bridge.failed = false) :
    let s := (render (sized sys)).bridge
    (runRender sys).bridge = sendStop { send ((renderable s).flatMap (showRequests s)
      ++ stackRequests s ++ [.renderFinish]) s with awaitingRender := false, phase := .idle } := by
  have hend : ∀ s : State, s.failed = false → sendStop { (if s.failed then s
      else { send ((renderable s).flatMap (showRequests s) ++ stackRequests s ++ [.renderFinish]) s
        with awaitingRender := false }) with phase := .idle } = sendStop { send ((renderable
          s).flatMap (showRequests s) ++ stackRequests s ++ [.renderFinish]) s with
            awaitingRender := false, phase := .idle } := by
    intro s hs
    rw [if_neg (Bool.eq_false_iff.mp hs)]
  exact hend _ (not_failed_of_step (quiet_finish quiet_renderFinish _).failed hf)

/-- A corrected record keeps its node. -/
theorem node_corrected (q : Option (Int × Int)) : (q.elim w w.corrected).node = w.node := by
  cases q with
  | none => rfl
  | some q =>
      simp only [Option.elim_some, Window.corrected]
      split <;> rfl

/-- A render sequence that succeeds, for one window. -/
theorem drawn_runRender {sys : System} (hids : (sys.bridge.windows.map Window.id).Nodup)
    (hw : findWindow i sys.bridge = some w) (hnode : w.node = true)
    (hf : (runRender sys).bridge.failed = false) :
    let w' := (correctionFor i (renderPointerPositions
      (runRender sys).runtime.runtimePolicy)).elim w w.corrected
    ∃ sent, (runRender sys).bridge.requests = sys.bridge.requests ++ sent
      ∧ ∀ v : View, (sent.foldl (View.ask i) v).hidden = !w'.visible
        ∧ (w'.visible = true → (sent.foldl (View.ask i) v).position = some (w'.x, w'.y)
          ∧ (sent.foldl (View.ask i) v).borders
            = some (w'.focused && !sys.bridge.locked, w'.border)) := by
  intro w'
  have hmoved : findWindow i (render (sized sys)).bridge = some w' := by
    refine (findWindow_corrected i (nodup_renderPointerPositions _) (s := (sized sys).bridge)
      rfl).trans ?_
    rw [show findWindow i (sized sys).bridge = some w from hw]
    rfl
  have hpos : Repositioned (sized sys).bridge (render (sized sys)).bridge := repositioned_render rfl
  have hids' : ((render (sized sys)).bridge.windows.map Window.id).Nodup := by
    rw [hpos.ids]
    exact hids
  have hnode' : w'.node = true := (node_corrected _).trans hnode
  have hsame : (render (sized sys)).bridge.requests = sys.bridge.requests := hpos.requests
  have hlocked : (render (sized sys)).bridge.locked = sys.bridge.locked := hpos.locked
  have heq := runRender_of_succeeds hf
  generalize (render (sized sys)).bridge = s at *
  obtain ⟨last, hlast, hfree⟩ := (unplaced_sendStop { send ((renderable s).flatMap
    (showRequests s) ++ stackRequests s ++ [.renderFinish]) s with
      awaitingRender := false, phase := .idle }).requests
  refine ⟨(renderable s).flatMap (showRequests s) ++ stackRequests s ++ [.renderFinish] ++ last,
    ?_, fun v => ?_⟩
  · rw [heq, hlast, ← hsame]
    simp only [send, List.append_assoc]
  · rw [List.foldl_append, ask_renderRequests hids' hmoved hnode',
      foldl_of_fixed fun r hr => ask_of_not_displays (hfree r hr), ← hlocked]
    exact ask_showRequests (findWindow_some hmoved).2.1 v

end Render

/-! ## Runs -/

section Runs

variable {i : Nat} {pl : Placement}

/-- What stands in a record that follows a placement, corrected or not. -/
structure Drawn (pl : Placement) (layer : Bool) (q : Option (Int × Int)) (w : Window) : Prop where
  visible : w.visible = pl.placementVisible
  focused : w.focused = (pl.placementFocused && !layer)
  border : w.border = 0
  position : pl.placementVisible = true → (w.x, w.y) = q.elim
    (pl.placementRect.rectX, pl.placementRect.rectY) fun q => (bounded q.1, bounded q.2)

/-- A record that obeys its placement is drawn as placed. -/
theorem drawn_corrected {live : List Nat} {layer : Bool} {w : Window}
    (h : Obeys pl.placing live layer w) (hn : Normal pl.placementRect) (q : Option (Int × Int)) :
    Drawn pl layer q (q.elim w w.corrected) := by
  obtain ⟨hx, hy, -, -⟩ := h.geometry hn
  cases q with
  | none => exact ⟨h.visible, h.focused, h.border, fun _ => Prod.ext hx hy⟩
  | some q =>
      have hbounded : ∀ value : Int, contentPosition (bounded value) 0 = bounded value := by
        intro value
        simp only [contentPosition, bounded, minInt32, maxInt32]
        omega
      cases hvisible : w.visible with
      | false =>
          have hhidden : pl.placementVisible = false := h.visible.symm.trans hvisible
          have hsame : w.corrected q = w := if_neg (Bool.eq_false_iff.mp hvisible)
          rw [Option.elim_some, hsame]
          exact ⟨h.visible, h.focused, h.border, fun hv => absurd (hhidden.symm.trans hv) Bool.false_ne_true⟩
      | true =>
          have hmoved : w.corrected q = { w with
              x := contentPosition (bounded q.1) w.border
              y := contentPosition (bounded q.2) w.border } := if_pos hvisible
          rw [Option.elim_some, hmoved]
          refine ⟨h.visible, h.focused, h.border, fun _ => ?_⟩
          rw [Option.elim_some, h.border, hbounded, hbounded]

/-- A window that is open after a render sequence was open before it. -/
theorem exists_rendered {sys : System} (h : (findWindow i (runRender sys).bridge).isSome) :
    ∃ w, findWindow i sys.bridge = some w := by
  obtain ⟨f, hf, heq⟩ := (quiet_runRender sys).windows
  obtain ⟨w', hw'⟩ := Option.isSome_iff_exists.mp h
  obtain ⟨hmem, hid, hopen⟩ := findWindow_some hw'
  obtain ⟨w, hw, rfl⟩ := List.mem_map.mp (heq ▸ hmem)
  refine Option.isSome_iff_exists.mp (List.find?_isSome.mpr ⟨w, hw, ?_⟩)
  rw [(hf w).id] at hid
  rw [(hf w).still trivial] at hopen
  simp [hid, hopen]

/-- What has been placed stands in the records until the window goes. -/
theorem placed_between {doomed : Nat → Prop} {managed : System} {s : State} {p : Policy}
    {v v' : View} (hmanaged : Managed i managed.bridge p v v')
    (ht : Told doomed managed.runtime.delivered managed.bridge) (hl : Ledger managed.bridge)
    (hstays : Stays i managed.bridge s) (hpl : pl ∈ renderPolicy p) (hid : pl.placementWindow = i)
    {w : Window} (hw : findWindow i s = some w) :
    w.node = true
      ∧ Obeys pl.placing (liveOutputs managed.bridge) (layerHasFocus managed.bridge) w := by
  obtain ⟨hmem, hwid, -⟩ := findWindow_some hw
  obtain ⟨old, hold, hstance⟩ := hstays.windows w hmem hwid
  have hfound := findWindow_of_mem hl hold (ht.announced.windows old hold).1
  rw [← show w.id = old.id from congrArg Stance.id hstance, hwid] at hfound
  obtain ⟨-, hnode, hobeys⟩ := hmanaged.placed pl hpl hid old hfound
  exact ⟨(congrArg Stance.node hstance).trans hnode, hobeys.congr hstance⟩

/-- What the last manage sequence placed still stands after callbacks that start no sequence. -/
theorem placed_managed {before : System} {v : View} (h : Presents pl.placementWindow before v)
    {between : List Callback} (hbetween : ∀ cb ∈ between, startsNothing cb)
    (hf : (runSystem between (managerManageStart before)).bridge.failed = false)
    (hpl : pl ∈ renderPolicy (managerManageStart before).runtime.runtimePolicy) {w : Window}
    (hw : findWindow pl.placementWindow
      (runSystem between (managerManageStart before)).bridge = some w) :
    Normal pl.placementRect ∧ w.node = true
      ∧ Obeys pl.placing (liveOutputs (managerManageStart before).bridge)
        (layerHasFocus (managerManageStart before).bridge) w := by
  have hmanaged : (managerManageStart before).bridge.failed = false := not_failed_runSystem hf
  have hplaced := h.managed hmanaged
  have hm := mirror_managerManageStart h.synced.mirror
  have ht := told_managerManageStart h.synced hmanaged
  have hl := (level_managerManageStart h.synced.toAgreement).ledger hmanaged
  obtain ⟨placed, hfound⟩ := Option.isSome_iff_exists.mp
    ((mem_placements hm ht hl _).mp (List.mem_map_of_mem hpl))
  obtain ⟨hmem, hid, -⟩ := findWindow_some hfound
  have hbound := hl.windows.bounded _ (List.mem_map_of_mem hmem)
  rw [hid] at hbound
  obtain ⟨hstays, -⟩ := stays_runSystem hbetween hbound hf
  exact ⟨normal_placementRect hm.reachable hpl, placed_between hplaced ht hl hstays hpl rfl hw⟩

/-- A render callback that does not fail runs its transaction. -/
theorem managerRenderStart_of_succeeds {sys : System}
    (hf : (managerRenderStart sys).bridge.failed = false) :
    managerRenderStart sys = runRender sys := by
  rcases managerRenderStart_cases sys with ⟨hfailed, heq⟩ | ⟨message, -, heq⟩ | ⟨-, heq⟩
  · rw [heq, hfailed] at hf
    contradiction
  · rw [heq] at hf
    contradiction
  · exact heq

/-- What a window's view is told by a render callback. -/
theorem drawn_managerRenderStart {sys : System} (hids : (sys.bridge.windows.map Window.id).Nodup)
    {w : Window} (hw : findWindow i sys.bridge = some w) (hnode : w.node = true)
    (hf : (managerRenderStart sys).bridge.failed = false) (v : View) :
    let w' := (correctionFor i (renderPointerPositions
      (managerRenderStart sys).runtime.runtimePolicy)).elim w w.corrected
    let v' := (traffic sys .managerRenderStart).foldl (View.hear i) v
    v'.hidden = !w'.visible
      ∧ (w'.visible = true → v'.position = some (w'.x, w'.y)
        ∧ v'.borders
          = some (w'.focused && !(managerRenderStart sys).bridge.locked, w'.border)) := by
  intro w' v'
  have hrun := managerRenderStart_of_succeeds hf
  have hissued : (sys.step .managerRenderStart).bridge.issued = sys.bridge.issued :=
    (kept_transacts (transacts_managerRenderStart sys)).1
  have hlocked : (managerRenderStart sys).bridge.locked = sys.bridge.locked := by
    rw [hrun]
    exact (quiet_runRender sys).locked trivial
  obtain ⟨sent, hsent, hviews⟩ := drawn_runRender hids hw hnode (hrun ▸ hf)
  rw [← hrun] at hsent hviews
  have htold : v' = sent.foldl (View.ask i) (v.tell .managerRenderStart) :=
    foldl_traffic hissued hsent v
  rw [htold, hlocked]
  exact hviews _

end Runs

/-- **Windows as drawn**: in every run, whatever the compositor calls, a render sequence without
failure that follows a manage sequence draws every window that is still open as the policy
placed it.  Hidden are exactly the windows the policy does not show; the others are at the
position of their placement, unless an edge of a resized window has to stay in its place; the
window with the focus has focused borders, if no layer surface has the focus and the session is
not locked. -/
theorem windows_as_drawn {cfg : Config} (hcfg : validateConfig cfg = .ok ())
    (loads : List (Option Config)) (decode : List UInt8 → String) (cbs between : List Callback)
    (hbetween : ∀ cb ∈ between, startsNothing cb) :
    let start := initialSystem cfg loads decode
    let managed := runSystem (cbs ++ [.managerManageStart]) start
    let run := cbs ++ [.managerManageStart] ++ between ++ [.managerRenderStart]
    let sys := runSystem run start
    sys.bridge.failed = false → ∀ pl ∈ renderPolicy managed.runtime.runtimePolicy,
      (findWindow pl.placementWindow sys.bridge).isSome →
      let v := view pl.placementWindow (wire run start)
      let corrected := correctionFor pl.placementWindow
        (renderPointerPositions sys.runtime.runtimePolicy)
      v.hidden = !pl.placementVisible
        ∧ (pl.placementVisible = true →
          v.position = some (corrected.elim (pl.placementRect.rectX, pl.placementRect.rectY)
            fun q => (bounded q.1, bounded q.2))
          ∧ v.borders = some (pl.placementFocused && !layerHasFocus managed.bridge
            && !sys.bridge.locked, 0)) := by
  intro start managed run sys hf pl hpl hopen v corrected
  let last := runSystem between managed
  have hmanaged : managed = managerManageStart (runSystem cbs start) := List.foldl_append
  have hlast : runSystem (cbs ++ [.managerManageStart] ++ between) start = last :=
    List.foldl_append
  have hsys : sys = managerRenderStart last := by
    rw [← hlast]
    exact List.foldl_append
  have hview : v = (traffic last .managerRenderStart).foldl (View.hear pl.placementWindow)
      (view pl.placementWindow (wire (cbs ++ [.managerManageStart] ++ between) start)) := by
    rw [← hlast, ← view_append, ← wire_concat]
  rw [hsys] at hf hopen
  have hlastOk : last.bridge.failed = false :=
    not_failed_of_step (failed_step · .managerRenderStart) hf
  have hledger : Ledger last.bridge := hlast ▸ (presents_runSystem hcfg loads decode
    (cbs ++ [.managerManageStart] ++ between) pl.placementWindow).synced.ledger (hlast ▸ hlastOk)
  obtain ⟨w, hw⟩ := exists_rendered (managerRenderStart_of_succeeds hf ▸ hopen)
  -- The manage sequence, and what comes between the sequences.
  have hplaced : Normal pl.placementRect ∧ w.node = true
      ∧ Obeys pl.placing (liveOutputs managed.bridge) (layerHasFocus managed.bridge) w := by
    rw [hmanaged] at hpl ⊢
    exact placed_managed (presents_runSystem hcfg loads decode cbs pl.placementWindow) hbetween
      (hmanaged ▸ hlastOk) hpl (hmanaged ▸ hw)
  obtain ⟨hnormal, hnode, hobeys⟩ := hplaced
  have hdrawn := drawn_corrected hobeys hnormal corrected
  -- The render sequence.
  obtain ⟨hhidden, hshown⟩ := drawn_managerRenderStart hledger.windows.nodup hw hnode hf
    (view pl.placementWindow (wire (cbs ++ [.managerManageStart] ++ between) start))
  rw [← hsys, ← hview] at hhidden hshown
  refine ⟨hhidden.trans (congrArg Bool.not hdrawn.visible), fun hvisible => ?_⟩
  obtain ⟨hposition, hborders⟩ := hshown (hdrawn.visible.trans hvisible)
  refine ⟨hposition.trans (congrArg some (hdrawn.position hvisible)), hborders.trans ?_⟩
  rw [hdrawn.focused, hdrawn.border]

/-- Window 2 is still shown after a lock and a render. -/
theorem windows_as_drawn_locked :
    (view 2 (wire (closedCallbacks ++ [.managerManageStart] ++ [.managerLocked]
      ++ [.managerRenderStart]) (initialSystem defaultConfig [] fun _ => ""))).hidden = false := by
  have hbetween : ∀ cb ∈ [Callback.managerLocked], startsNothing cb := by simp [startsNothing]
  have hf : (runSystem (closedCallbacks ++ [.managerManageStart] ++ [.managerLocked]
      ++ [.managerRenderStart]) (initialSystem defaultConfig [] fun _ => "")).bridge.failed
        = false := by decide +kernel
  have hpl : (⟨2, ⟨0, 0, 800, 600⟩, true, true, some 1, false, false⟩ : Placement)
      ∈ renderPolicy (runSystem (closedCallbacks ++ [.managerManageStart])
        (initialSystem defaultConfig [] fun _ => "")).runtime.runtimePolicy := by decide +kernel
  have hopen : (findWindow 2 (runSystem (closedCallbacks ++ [.managerManageStart]
      ++ [.managerLocked] ++ [.managerRenderStart])
        (initialSystem defaultConfig [] fun _ => "")).bridge).isSome := by decide +kernel
  exact (windows_as_drawn validateConfig_defaultConfig [] (fun _ => "") closedCallbacks
    [.managerLocked] hbetween hf _ hpl hopen).1

end XmonadWayland.Bridge
