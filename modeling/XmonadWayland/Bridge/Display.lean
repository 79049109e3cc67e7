import XmonadWayland.Bridge.Lifetime
import XmonadWayland.Bridge.Order
import XmonadWayland.Bridge.Attention

/-!
# XmonadWayland.Bridge.Display

From the policy to the compositor.  A manage sequence hands every placement to the two setters;
after it the compositor's view of every window is the placement the policy gives it.  What the
view and the record know of each other between the sequences is the invariant that carries a
run (`Displayed`).
-/

namespace XmonadWayland

open Bridge

/-- The arguments Haskell passes for a placement. -/
def Placement.placing (pl : Placement) : Placing where
  id := pl.placementWindow
  outputId := pl.placementOutput.getD 0
  floating := pl.placementFloating
  fullscreen := pl.placementFullscreen
  visible := pl.placementVisible
  x := bounded pl.placementRect.rectX
  y := bounded pl.placementRect.rectY
  width := bounded pl.placementRect.rectWidth
  height := bounded pl.placementRect.rectHeight
  focused := pl.placementFocused

end XmonadWayland

namespace XmonadWayland.Bridge

/-! ## A pass over the placements -/

section Pass

variable {s : State} {calls : List Placing}

/-- A placing call keeps the windows' ids. -/
theorem Addresses.ids {id : Nat} {s s' : State} (h : Addresses id s s') :
    s'.windows.map Window.id = s.windows.map Window.id := by
  obtain ⟨f, requests, hf, -, rfl⟩ := h
  simp only [send, modifyWindow, List.map_map]
  refine List.map_congr_left fun w _ => ?_
  simp only [Function.comp_apply]
  split
  · exact (hf w).1
  · rfl

/-- What a pass changes of no window. -/
structure PassKept (s s' : State) : Prop where
  placeable : Placeable s'
  outputs : s'.outputs = s.outputs
  layer : layerHasFocus s' = layerHasFocus s
  locked : s'.locked = s.locked
  ids : s'.windows.map Window.id = s.windows.map Window.id

/-- Placing the windows keeps what a pass keeps. -/
theorem passKept (hs : Placeable s) (calls : List Placing) : PassKept s (placeAll calls s) := by
  refine List.foldlRecOn (motive := fun t => PassKept s t) calls _ ⟨hs, rfl, rfl, rfl, rfl⟩
    fun t ht c _ => ?_
  have haddress := addresses_run ht.placeable c
  obtain ⟨hplaceable, houtputs, hlayer, hlocked⟩ := haddress.kept
  exact ⟨hplaceable ht.placeable, houtputs.trans ht.outputs, hlayer.trans ht.layer,
    hlocked.trans ht.locked, haddress.ids.trans ht.ids⟩

/-- The calls of other windows. -/
theorem beside_pass (hs : Placeable s) {i : Nat} (h : i ∉ calls.map Placing.id) :
    Beside i s (placeAll calls s) := by
  suffices hboth : Placeable (placeAll calls s) ∧ Beside i s (placeAll calls s) from hboth.2
  refine List.foldlRecOn (motive := fun t => Placeable t ∧ Beside i s t) calls _
    ⟨hs, .refl i s⟩ fun t ⟨hplaceable, hbeside⟩ c hc => ?_
  have haddress := addresses_run hplaceable c
  exact ⟨haddress.kept.1 hplaceable, hbeside.trans (haddress.beside fun heq =>
    h (heq ▸ List.mem_map_of_mem hc))⟩

/-- A window that is called once. -/
theorem settled_pass (hs : Placeable s) {c : Placing} (hc : c ∈ calls)
    (hnodup : (calls.map Placing.id).Nodup) {w : Window} (hw : findWindow c.id s = some w) :
    findWindow c.id (placeAll calls s)
        = some (c.settled (liveOutputs s) (layerHasFocus s) w)
      ∧ ∃ sent, (placeAll calls s).requests = s.requests ++ sent
        ∧ ∀ v : View, sent.foldl (View.ask c.id) v
          = (c.sent (liveOutputs s) (layerHasFocus s) w).foldl (View.ask c.id) v := by
  obtain ⟨first, last, rfl⟩ := List.append_of_mem hc
  rw [List.map_append, List.map_cons, List.nodup_middle, List.nodup_cons, List.mem_append,
    not_or] at hnodup
  obtain ⟨⟨hfirst, hlast⟩, -⟩ := hnodup
  have hkept := passKept hs first
  have hbefore := beside_pass hs hfirst
  have hlive : liveOutputs (placeAll first s) = liveOutputs s := by
    rw [liveOutputs, hkept.outputs]
    rfl
  have hsets := sets_settled hkept.placeable (hbefore.window.trans hw)
  rw [hlive, hkept.layer] at hsets
  have hafter := beside_pass hsets.placeable hlast
  have hall : placeAll (first ++ c :: last) s = placeAll last (c.run (placeAll first s)) := by
    rw [placeAll, List.foldl_append, List.foldl_cons]
    rfl
  obtain ⟨extra, heq, hfree⟩ := hbefore.requests
  obtain ⟨extra', heq', hfree'⟩ := hafter.requests
  rw [hall]
  refine ⟨hafter.window.trans hsets.window, extra
    ++ (c.sent (liveOutputs s) (layerHasFocus s) w ++ extra'), ?_, fun v => ?_⟩
  · rw [heq', hsets.requests, heq, List.append_assoc, List.append_assoc]
  · rw [List.foldl_append, List.foldl_append, hfree v, hfree']

end Pass

/-! ## The hand over -/

/-- What the view of window `i` and its record know of each other between the sequences. -/
structure Displayed (i : Nat) (s : State) (v : View) : Prop where
  seen : ∀ w ∈ s.windows, w.id = i → Seen (liveOutputs s) w v
  bounded : ∀ w ∈ s.windows, w.id = i → w.fullscreenOutput ≤ s.nextId
  fresh : s.nextId < i → v.output = none ∧ v.informed = false ∧ v.undefined = false

/-- Where a call puts a record. -/
structure Obeys (c : Placing) (live : List Nat) (layer : Bool) (w : Window) : Prop where
  visible : w.visible = c.visible
  floating : w.floating = c.floating
  focused : w.focused = (c.focused && !layer)
  x : w.x = contentPosition c.x 0
  y : w.y = contentPosition c.y 0
  width : w.width = if 0 < c.width then c.width else 1
  height : w.height = if 0 < c.height then c.height else 1
  border : w.border = 0
  fullscreenOutput : w.fullscreenOutput = c.goal live

theorem Obeys.congr {c : Placing} {live : List Nat} {layer : Bool} {w w' : Window}
    (h : Obeys c live layer w) (hw : w'.stance = w.stance) : Obeys c live layer w' where
  visible := (congrArg Stance.visible hw).trans h.visible
  floating := (congrArg Stance.floating hw).trans h.floating
  focused := (congrArg Stance.focused hw).trans h.focused
  x := (congrArg Stance.x hw).trans h.x
  y := (congrArg Stance.y hw).trans h.y
  width := (congrArg Stance.width hw).trans h.width
  height := (congrArg Stance.height hw).trans h.height
  border := (congrArg Stance.border hw).trans h.border
  fullscreenOutput := (congrArg Stance.fullscreenOutput hw).trans h.fullscreenOutput

theorem Shows.congr {c : Placing} {live : List Nat} {w w' : Window} {v : View}
    (h : Shows c live w v) (hw : w'.stance = w.stance) : Shows c live w' v where
  seen := h.seen.congr (congrArg Stance.fullscreenOutput hw) (congrArg Stance.exitedFullscreen hw)
    rfl rfl rfl
  tiled := h.tiled
  geometry hvisible hgoal := by
    rw [show w'.width = w.width from congrArg Stance.width hw,
      show w'.height = w.height from congrArg Stance.height hw]
    exact h.geometry hvisible hgoal

/-- A settled record obeys its placing call. -/
theorem obeys_settled (c : Placing) (live : List Nat) (layer : Bool) (w : Window) :
    Obeys c live layer (c.settled live layer w) := by
  have hwidth : ∀ k : Int, (if 0 < k then k - 2 * 0 else 1) = if 0 < k then k else 1 := by simp
  unfold Placing.settled Window.restored
  split <;> exact ⟨rfl, rfl, rfl, rfl, rfl, hwidth _, hwidth _, rfl, rfl⟩

section HandOver

variable {doomed : Nat → Prop} {sys : System}

/-- Before the placements are handed over. -/
def readyToPlace (p : Policy) (s : State) : State :=
  xwSetOutput ((focusedOutput p).getD 0) (xwSetPointerOperation (operationTriple p).1
    (operationTriple p).2.1 (operationTriple p).2.2 (xwSetBindingMode p.activeMode.fromEnum s))

/-- A policy push places all windows, then focuses. -/
theorem applyPolicy_placeAll (p : Policy) (s : State) :
    applyPolicy p s = xwFocus ((focusedWindow p).getD 0)
      (placeAll ((renderPolicy p).map Placement.placing) (readyToPlace p s)) := by
  rw [applyPolicy_eq, placeAll, List.foldl_map]
  rfl

/-- What precedes the placing calls places nothing. -/
theorem unplaced_readyToPlace (p : Policy) (s : State) : Unplaced s (readyToPlace p s) :=
  ((unplaced_xwSetBindingMode s _).trans (unplaced_xwSetPointerOperation _ _ _ _)).trans
    (unplaced_xwSetOutput _ _)

/-- Switching the binding mode leaves windows and outputs. -/
theorem windows_xwSetBindingMode (mode : Nat) (s : State) :
    (xwSetBindingMode mode s).windows = s.windows
      ∧ (xwSetBindingMode mode s).outputs = s.outputs := by
  unfold xwSetBindingMode
  split
  · exact ⟨rfl, rfl⟩
  · simp only
    split <;> exact ⟨rfl, rfl⟩

/-- Choosing the default output leaves windows and outputs. -/
theorem windows_xwSetOutput (id : Nat) (s : State) :
    (xwSetOutput id s).windows = s.windows ∧ (xwSetOutput id s).outputs = s.outputs := by
  unfold xwSetOutput requireManage
  split
  · exact ⟨rfl, rfl⟩
  · split
    · exact ⟨rfl, rfl⟩
    · simp only
      split <;> exact ⟨rfl, rfl⟩

/-- Modes, operations and the output change no record of a window. -/
theorem windows_readyToPlace (p : Policy) (s : State) :
    (readyToPlace p s).windows = s.windows ∧ (readyToPlace p s).outputs = s.outputs := by
  obtain ⟨hw, ho⟩ := windows_xwSetBindingMode p.activeMode.fromEnum s
  obtain ⟨hw', ho', -⟩ := records_xwSetPointerOperation (operationTriple p).1
    (operationTriple p).2.1 (operationTriple p).2.2 (xwSetBindingMode p.activeMode.fromEnum s)
  obtain ⟨hw'', ho''⟩ := windows_xwSetOutput ((focusedOutput p).getD 0) (xwSetPointerOperation
    (operationTriple p).1 (operationTriple p).2.1 (operationTriple p).2.2
    (xwSetBindingMode p.activeMode.fromEnum s))
  exact ⟨hw''.trans (hw'.trans hw), ho''.trans (ho'.trans ho)⟩

/-- What precedes the placing calls leaves the phase. -/
theorem phase_readyToPlace (p : Policy) (s : State) : (readyToPlace p s).phase = s.phase := by
  have hoperation := (deeds_xwSetPointerOperation (operationTriple p).1 (operationTriple p).2.1
    (operationTriple p).2.2 (xwSetBindingMode p.activeMode.fromEnum s)).keeps
    (P := fun t => t.phase = (xwSetBindingMode p.activeMode.fromEnum s).phase)
    (fun hd ht => (phase_deed hd).trans ht) rfl
  exact ((quiet_xwSetOutput _ _).phase.trans hoperation).trans (quiet_xwSetBindingMode _ s).phase

/-- The windows that are handed over are announced and open. -/
theorem announced_handedOver (h : Flow doomed sys) (hf : (runManage sys).bridge.failed = false) :
    Announced (handedOver sys).bridge := by
  obtain ⟨hflow, hannounced⟩ := flow_beforeQueue h (not_failed_beforeQueue hf)
  obtain ⟨hflow, hannounced⟩ := flow_drainInput hflow hannounced
  exact (flow_publishDrag hflow hannounced).2

/-- After the placements nothing else is placed. -/
theorem unplaced_manage (sys : System) : Unplaced
    (placeAll ((renderPolicy sys.runtime.runtimePolicy).map Placement.placing)
      (readyToPlace sys.runtime.runtimePolicy sys.bridge)) (manage sys).bridge := by
  refine manage_induction (P := fun t => Unplaced _ t.bridge) ?_ fun t effect ht =>
    ht.trans (unplaced_execute t effect)
  rw [applyPolicy_placeAll]
  exact unplaced_xwFocus _ _

/-- The manage callback is quiet from the placing calls on. -/
theorem quiet_manage (sys : System) : Quiet True (readyToPlace sys.runtime.runtimePolicy sys.bridge)
    (manage sys).bridge := by
  refine manage_induction (P := fun t => Quiet True _ t.bridge) ?_ fun t effect ht =>
    ht.trans (quiet_execute t effect).1
  rw [applyPolicy_placeAll]
  exact (quiet_placeAll _ _).trans (quiet_xwFocus _ _)

/-- Ready to place: a manage sequence without failure, of a bridge with its ledger. -/
theorem placeable_readyToPlace (h : Ledger sys.bridge) (hphase : sys.bridge.phase = .manage)
    (hf : (manage sys).bridge.failed = false) :
    Placeable (readyToPlace sys.runtime.runtimePolicy sys.bridge) := by
  refine ⟨(phase_readyToPlace _ _).trans hphase,
    not_failed_of_step (quiet_manage sys).failed hf, fun output houtput => ?_⟩
  rw [(windows_readyToPlace _ _).2] at houtput
  exact Nat.one_le_iff_ne_zero.mp (h.outputs.positive _ (List.mem_map_of_mem houtput))

/-- What the end of a sequence adds to a view. -/
theorem finished_view (s : State) (i : Nat) :
    ∃ sent, (sendStop { send [.manageFinish] s with
        managed := true, awaitingRender := true, phase := .idle }).requests = s.requests ++ sent
      ∧ ∀ v : View, sent.foldl (View.ask i) v = v.ask i .manageFinish := by
  obtain ⟨extra, heq, hfree⟩ := (unplaced_sendStop { send [.manageFinish] s with
    managed := true, awaitingRender := true, phase := .idle }).requests
  refine ⟨.manageFinish :: extra, ?_, fun v => ?_⟩
  · rw [heq]
    simp [send]
  · rw [List.foldl_cons]
    exact foldl_of_fixed fun r hr => ask_of_not_displays (hfree r hr)

/-- A window that is managed has an open record, which is the one that was placed. -/
theorem placed_record {s t : State} (hids : (s.windows.map Window.id).Nodup)
    (hafter : Unplaced s t) {w w' : Window} (hw : findWindow w.id s = some w)
    (hw' : findWindow w.id t = some w') : w'.stance = w.stance := by
  obtain ⟨hmem', hid', -⟩ := findWindow_some hw'
  obtain ⟨hmem, -, -⟩ := findWindow_some hw
  obtain ⟨old, hold, hstance⟩ := hafter.window hmem'
  have hid : old.id = w.id := (congrArg Stance.id hstance).trans hid'
  rw [← hstance, List.inj_on_of_nodup_map hids hold hmem hid]

/-- Each window is placed once. -/
theorem nodup_placings (p : Policy) :
    (((renderPolicy p).map Placement.placing).map Placing.id).Nodup := by
  have hwindows : ((renderPolicy p).map Placement.placing).map Placing.id
      = p.windowSet.allWindows := by
    rw [List.map_map]
    exact map_placementWindow p
  rw [hwindows]
  exact StackSet.nodup_allWindows _

/-- One placement in a manage sequence: what the compositor is told of its window. -/
theorem placed_manage (hs : Placeable (readyToPlace sys.runtime.runtimePolicy sys.bridge))
    (hids : (sys.bridge.windows.map Window.id).Nodup) {w w' : Window}
    (hnode : w.node = true) {pl : Placement} (hpl : pl ∈ renderPolicy sys.runtime.runtimePolicy)
    (hw : findWindow pl.placementWindow sys.bridge = some w)
    (hw' : findWindow pl.placementWindow (manage sys).bridge = some w') :
    w'.node = true ∧ Obeys pl.placing (liveOutputs sys.bridge)
        (layerHasFocus (readyToPlace sys.runtime.runtimePolicy sys.bridge)) w'
      ∧ ∃ sent, (manage sys).bridge.requests = sys.bridge.requests ++ sent
        ∧ ∀ v, Seen (liveOutputs sys.bridge) w v → v.proposed = false → v.positioned = false →
          Shows pl.placing (liveOutputs sys.bridge) w'
            ((sent.foldl (View.ask pl.placementWindow) v).ask pl.placementWindow
              .manageFinish) := by
  have hready := unplaced_readyToPlace sys.runtime.runtimePolicy sys.bridge
  obtain ⟨hwindows, -⟩ := windows_readyToPlace sys.runtime.runtimePolicy sys.bridge
  have hafter := unplaced_manage sys
  generalize readyToPlace sys.runtime.runtimePolicy sys.bridge = ready
    at hs hready hwindows hafter ⊢
  have hfound : findWindow pl.placing.id ready = some w := by
    rw [findWindow, hwindows]
    exact hw
  obtain ⟨hsettled, sent, heq, hviews⟩ :=
    settled_pass hs (List.mem_map_of_mem hpl) (nodup_placings _) hfound
  rw [hready.outputs] at hsettled hviews
  have hpass := passKept hs ((renderPolicy sys.runtime.runtimePolicy).map Placement.placing)
  have hstance : w'.stance
      = (pl.placing.settled (liveOutputs sys.bridge) (layerHasFocus ready) w).stance := by
    have hnodup := hids
    rw [← hwindows, ← hpass.ids] at hnodup
    have hid : (pl.placing.settled (liveOutputs sys.bridge) (layerHasFocus ready) w).id
        = pl.placementWindow := (findWindow_some hsettled).2.1
    refine placed_record hnodup hafter ?_ ?_
    · rw [hid]
      exact hsettled
    · rw [hid]
      exact hw'
  obtain ⟨before, hbefore, hbeforeFree⟩ := hready.requests
  obtain ⟨after, hlast, hafterFree⟩ := hafter.requests
  have hsettledNode : (pl.placing.settled (liveOutputs sys.bridge) (layerHasFocus ready) w).node
      = w.node := by
    unfold Placing.settled Window.restored
    split <;> rfl
  refine ⟨(congrArg Stance.node hstance).trans (hsettledNode.trans hnode),
    (obeys_settled _ _ _ _).congr hstance, before ++ sent ++ after, ?_,
    fun v hseen hproposed hpositioned => ?_⟩
  · rw [hlast, heq, hbefore, List.append_assoc, List.append_assoc, List.append_assoc]
  · have hzero : 0 ∉ liveOutputs sys.bridge := by
      rw [← hready.outputs]
      intro hmem
      obtain ⟨output, houtput, hid, -⟩ := mem_liveOutputs.mp hmem
      exact hs.outputs output houtput hid
    have hview : (before ++ sent ++ after).foldl (View.ask pl.placementWindow) v
        = (pl.placing.sent (liveOutputs sys.bridge) (layerHasFocus ready) w).foldl
          (View.ask pl.placing.id) v := by
      rw [List.foldl_append, List.foldl_append,
        foldl_of_fixed fun r hr => ask_of_not_displays (hbeforeFree r hr)]
      rw [foldl_of_fixed fun r hr => ask_of_not_displays (hafterFree r hr)]
      exact hviews v
    rw [hview]
    exact (shows_settled hzero hseen hnode hproposed hpositioned _).congr hstance

/-- From the placements to the end of the sequence: where the focus goes. -/
theorem attends_manage (hs : Placeable (readyToPlace sys.runtime.runtimePolicy sys.bridge)) :
    Attends (focusRequests ((focusedWindow sys.runtime.runtimePolicy).getD 0)
        (placeAll ((renderPolicy sys.runtime.runtimePolicy).map Placement.placing)
          (readyToPlace sys.runtime.runtimePolicy sys.bridge)))
      (readyToPlace sys.runtime.runtimePolicy sys.bridge) (manage sys).bridge := by
  have hplaced := attends_placeAll (readyToPlace sys.runtime.runtimePolicy sys.bridge)
    ((renderPolicy sys.runtime.runtimePolicy).map Placement.placing)
  have hfocus := attends_xwFocus (passKept hs ((renderPolicy sys.runtime.runtimePolicy).map
    Placement.placing)).placeable ((focusedWindow sys.runtime.runtimePolicy).getD 0)
  refine manage_induction (P := fun t => Attends _ _ t.bridge) ?_ fun t effect ht => ?_
  · rw [applyPolicy_placeAll]
    exact hplaced.trans hfocus
  · rw [← List.append_nil (focusRequests _ _)]
    exact ht.trans (attends_execute t effect)

/-- Windows without a placement are not told anything. -/
theorem unplaced_window (hs : Placeable (readyToPlace sys.runtime.runtimePolicy sys.bridge))
    {i : Nat} (hi : i ∉ (renderPolicy sys.runtime.runtimePolicy).map Placement.placementWindow) :
    ∃ sent, (manage sys).bridge.requests = sys.bridge.requests ++ sent
      ∧ ∀ v : View, sent.foldl (View.ask i) v = v := by
  have hbeside : Beside i (readyToPlace sys.runtime.runtimePolicy sys.bridge)
      (placeAll ((renderPolicy sys.runtime.runtimePolicy).map Placement.placing)
        (readyToPlace sys.runtime.runtimePolicy sys.bridge)) :=
    beside_pass hs (by rwa [List.map_map])
  obtain ⟨before, hbefore, hbeforeFree⟩ :=
    (unplaced_readyToPlace sys.runtime.runtimePolicy sys.bridge).requests
  obtain ⟨sent, heq, hfree⟩ := hbeside.requests
  obtain ⟨after, hlast, hafterFree⟩ := (unplaced_manage sys).requests
  refine ⟨before ++ sent ++ after, ?_, fun v => ?_⟩
  · rw [hlast, heq, hbefore, List.append_assoc, List.append_assoc, List.append_assoc]
  · rw [List.foldl_append, List.foldl_append,
      foldl_of_fixed fun r hr => ask_of_not_displays (hbeforeFree r hr), hfree]
    exact foldl_of_fixed fun r hr => ask_of_not_displays (hafterFree r hr)

end HandOver

/-! ## A manage sequence -/

section Manage

variable {doomed : Nat → Prop} {sys : System}

/-- What a manage sequence makes known of window `i`, which the policy `p` places or not. -/
structure Managed (i : Nat) (s' : State) (p : Policy) (v v' : View) : Prop where
  placed : ∀ pl ∈ renderPolicy p, pl.placementWindow = i → ∀ w', findWindow i s' = some w' →
    Shows pl.placing (liveOutputs s') w' v' ∧ w'.node = true
      ∧ Obeys pl.placing (liveOutputs s') (layerHasFocus s') w'
  absent : i ∉ (renderPolicy p).map Placement.placementWindow →
    v'.output = v.output ∧ v'.informed = v.informed ∧ (v.undefined = false → v'.undefined = false)

/-- A window that is open after the placements was open before them. -/
theorem exists_handed {i : Nat} {w' : Window}
    (hs : Placeable (readyToPlace sys.runtime.runtimePolicy sys.bridge))
    (hopen : ∀ w ∈ sys.bridge.windows, w.closed = false)
    (hw' : findWindow i (manage sys).bridge = some w') : ∃ w, findWindow i sys.bridge = some w := by
  obtain ⟨hmem', hid', -⟩ := findWindow_some hw'
  obtain ⟨w₁, hmem₁, hstance⟩ := (unplaced_manage sys).window hmem'
  have hid₁ : w₁.id = i := (congrArg Stance.id hstance).trans hid'
  have hids : i ∈ sys.bridge.windows.map Window.id := by
    rw [← (windows_readyToPlace sys.runtime.runtimePolicy sys.bridge).1, ← (passKept hs
      ((renderPolicy sys.runtime.runtimePolicy).map Placement.placing)).ids, ← hid₁]
    exact List.mem_map_of_mem hmem₁
  obtain ⟨w, hmem, hid⟩ := List.mem_map.mp hids
  refine Option.isSome_iff_exists.mp (List.find?_isSome.mpr ⟨w, hmem, ?_⟩)
  simp [hid, hopen w hmem]

/-- The manage callback keeps the live outputs. -/
theorem liveOutputs_manage (hs : Placeable (readyToPlace sys.runtime.runtimePolicy sys.bridge)) :
    liveOutputs (manage sys).bridge = liveOutputs sys.bridge := by
  rw [(unplaced_manage sys).outputs, liveOutputs, (passKept hs _).outputs]
  exact (unplaced_readyToPlace sys.runtime.runtimePolicy sys.bridge).outputs

/-- A sequence without failure is answered. -/
theorem finishManage_answers (hf : (finishManage sys).bridge.failed = false) :
    let handed := sys.onBridge fun s => { s with pointerCancelBatch := false }
    (manage handed).bridge.failed = false ∧ (finishManage sys).bridge
      = sendStop { send [.manageFinish] (manage handed).bridge with
          managed := true, awaitingRender := true, phase := .idle } := by
  obtain ⟨hmanaged, heq⟩ := finishManage_of_succeeds hf
  have hend : ∀ s : State, s.failed = false → sendStop { (if s.failed then s
      else { send [.manageFinish] s with managed := true, awaitingRender := true }) with
        phase := .idle } = sendStop { send [.manageFinish] s with
          managed := true, awaitingRender := true, phase := .idle } := by
    intro s hs
    rw [if_neg (Bool.eq_false_iff.mp hs)]
  exact ⟨hmanaged, (congrArg System.bridge heq).trans (hend _ hmanaged)⟩

/-- From the placements to the end of the sequence: where the focus goes. -/
theorem attends_finishManage (hs : Placeable (readyToPlace sys.runtime.runtimePolicy
      (sys.onBridge fun s => { s with pointerCancelBatch := false }).bridge))
    (hf : (finishManage sys).bridge.failed = false) :
    let ready := readyToPlace sys.runtime.runtimePolicy
      (sys.onBridge fun s => { s with pointerCancelBatch := false }).bridge
    Attends (focusRequests ((focusedWindow sys.runtime.runtimePolicy).getD 0)
      (placeAll ((renderPolicy sys.runtime.runtimePolicy).map Placement.placing) ready))
        ready (finishManage sys).bridge := by
  intro ready
  have hended : ∀ s : State, Attends [] s { send [.manageFinish] s with
      managed := true, awaitingRender := true, phase := .idle } := fun _ =>
    .tell rfl rfl rfl rfl (List.forall_mem_singleton.mpr rfl)
  rw [(finishManage_answers hf).2, ← List.append_nil (focusRequests _ _)]
  exact (attends_manage hs).trans ((hended _).both (attends_sendStop _))

/-- The hand over of a policy and the end of the sequence. -/
theorem managed_finishManage (hledger : Ledger sys.bridge) (hphase : sys.bridge.phase = .manage)
    (hopen : ∀ w ∈ sys.bridge.windows, w.closed = false) {i : Nat}
    (hnode : ∀ w ∈ sys.bridge.windows, w.id = i → w.node = true)
    (hf : (finishManage sys).bridge.failed = false) {v : View}
    (hseen : ∀ w ∈ sys.bridge.windows, w.id = i → Seen (liveOutputs sys.bridge) w v)
    (hproposed : v.proposed = false) (hpositioned : v.positioned = false) :
    liveOutputs (finishManage sys).bridge = liveOutputs sys.bridge
      ∧ ∃ sent, (finishManage sys).bridge.requests = sys.bridge.requests ++ sent
        ∧ Managed i (finishManage sys).bridge sys.runtime.runtimePolicy v
          (sent.foldl (View.ask i) v) := by
  obtain ⟨hmanaged, hfinish⟩ := finishManage_answers hf
  have hcancel : Ledger (sys.onBridge fun s => { s with pointerCancelBatch := false }).bridge :=
    { hledger with }
  have hs := placeable_readyToPlace hcancel hphase hmanaged
  have hlayer : layerHasFocus (finishManage sys).bridge = layerHasFocus (readyToPlace
      (sys.onBridge fun s => { s with pointerCancelBatch := false }).runtime.runtimePolicy
        (sys.onBridge fun s => { s with pointerCancelBatch := false }).bridge) :=
    (@attends_finishManage sys hs hf).layer
  have hopen' : ∀ w ∈ (sys.onBridge fun s => { s with pointerCancelBatch := false }).bridge.windows,
      w.closed = false := hopen
  have hseen' : ∀ w, findWindow i (sys.onBridge fun s =>
      { s with pointerCancelBatch := false }).bridge = some w → w.node = true
        ∧ Seen (liveOutputs sys.bridge) w v := by
    intro w hw
    obtain ⟨hmem, hid, -⟩ := findWindow_some hw
    exact ⟨hnode w hmem hid, hseen w hmem hid⟩
  have hlive := liveOutputs_manage hs
  have hids := hcancel.windows.nodup
  rw [show sys.runtime.runtimePolicy = (sys.onBridge fun s =>
    { s with pointerCancelBatch := false }).runtime.runtimePolicy from rfl]
  rw [show liveOutputs sys.bridge = liveOutputs (sys.onBridge fun s =>
    { s with pointerCancelBatch := false }).bridge from rfl] at hseen' ⊢
  rw [show sys.bridge.requests = (sys.onBridge fun s =>
    { s with pointerCancelBatch := false }).bridge.requests from rfl]
  clear hcancel
  generalize (sys.onBridge fun s => { s with pointerCancelBatch := false }) = handed at *
  obtain ⟨late, hlate, hfinished⟩ := finished_view (manage handed).bridge i
  have hfound : findWindow i (finishManage sys).bridge = findWindow i (manage handed).bridge := by
    rw [findWindow, hfinish, windows_sendStop]
    rfl
  have houtputs : liveOutputs (finishManage sys).bridge = liveOutputs handed.bridge := by
    rw [hfinish, (unplaced_sendStop _).outputs]
    exact hlive
  obtain ⟨first, hfirst, -⟩ :=
    (unplaced_readyToPlace handed.runtime.runtimePolicy handed.bridge).requests
  obtain ⟨rest, -, hrest⟩ := (quiet_manage handed).requests
  have hsent : (manage handed).bridge.requests = handed.bridge.requests ++ (first ++ rest) := by
    rw [hrest, hfirst, List.append_assoc]
  refine ⟨houtputs, first ++ rest ++ late, by rw [hfinish, hlate, hsent, List.append_assoc],
    fun pl hpl hid w' hw' => ?_, fun hi => ?_⟩
  · subst hid
    rw [hfound] at hw'
    obtain ⟨w, hw⟩ := exists_handed hs hopen' hw'
    obtain ⟨hnode, hseen⟩ := hseen' w hw
    obtain ⟨hattached, hobeys, sent, heq, hshows⟩ := placed_manage hs hids hnode hpl hw hw'
    obtain rfl : sent = first ++ rest := List.append_cancel_left (heq.symm.trans hsent)
    rw [houtputs, hlayer, List.foldl_append, hfinished]
    exact ⟨hshows v hseen hproposed hpositioned, hattached, hobeys⟩
  · obtain ⟨sent, heq, hfree⟩ := unplaced_window hs hi
    obtain rfl : sent = first ++ rest := List.append_cancel_left (heq.symm.trans hsent)
    rw [List.foldl_append, hfree, hfinished]
    exact ⟨rfl, rfl, fun hv => by simp [View.ask, hv]⟩

/-- A manage sequence that succeeds. -/
theorem managed_runManage (h : Synced doomed sys) (hok : sys.bridge.failed = false)
    (hsuited : Suited sys.bridge) (hf : (runManage sys).bridge.failed = false) {i : Nat} {v : View}
    (hseen : ∀ w ∈ sys.bridge.windows, w.id = i → Seen (liveOutputs sys.bridge) w v) :
    liveOutputs (runManage sys).bridge = liveOutputs sys.bridge
      ∧ ∃ sent, (runManage sys).bridge.requests = sys.bridge.requests ++ sent
        ∧ Managed i (runManage sys).bridge (runManage sys).runtime.runtimePolicy v
          (sent.foldl (View.ask i) (v.tell .managerManageStart)) := by
  have hhanded : (handedOver sys).bridge.failed = false := not_failed_of_step failed_finishManage hf
  have hopen := (announced_handedOver ⟨h.ledger hok, h.stream hok⟩ hf).windows
  have hledger := ledger_handedOver (h.ledger hok) hhanded
  have hnode : ∀ w ∈ (handedOver sys).bridge.windows, w.id = i → w.node = true :=
    node_handedOver (fun w hw _ hc => (hsuited w hw).trans hc) hhanded
  have hphase := phase_handedOver sys
  have hpolicy : (runManage sys).runtime.runtimePolicy = (handedOver sys).runtime.runtimePolicy :=
    policy_finishManage (handedOver sys)
  obtain ⟨hwindows, hlive, ⟨early, hearly, htiled⟩, -⟩ := readied_handedOver sys
  rw [runManage_handedOver] at hf hpolicy ⊢
  rw [hpolicy]
  clear hpolicy hhanded
  generalize handedOver sys = handed at *
  obtain ⟨edges, hedges⟩ := htiled i (v.tell .managerManageStart)
  have hseen' : ∀ w ∈ handed.bridge.windows, w.id = i → Seen (liveOutputs handed.bridge) w
      { v.tell .managerManageStart with tiled := edges } := by
    intro w hw hid
    obtain ⟨old, hold, hstance⟩ := hwindows w hw
    have hsame : old.id = i := (congrArg Stance.id hstance).symm.trans hid
    rw [hlive]
    exact (hseen old hold hsame).congr (congrArg Stance.fullscreenOutput hstance)
      (congrArg Stance.exitedFullscreen hstance) rfl rfl rfl
  obtain ⟨houtputs, sent, hsent, hmanaged⟩ := managed_finishManage hledger hphase
    (fun w hw => (hopen w hw).1) hnode hf hseen' rfl rfl
  refine ⟨houtputs.trans hlive, early ++ sent, by rw [hsent, hearly, List.append_assoc], ?_⟩
  rw [List.foldl_append, hedges]
  exact ⟨hmanaged.placed, hmanaged.absent⟩

/-- An open recorded window is found under its id. -/
theorem findWindow_of_mem {s : State} (hl : Ledger s) {w : Window} (hw : w ∈ s.windows)
    (hopen : w.closed = false) : findWindow w.id s = some w := by
  obtain ⟨w', hw'⟩ : ∃ w', findWindow w.id s = some w' :=
    Option.isSome_iff_exists.mp (List.find?_isSome.mpr ⟨w, hw, by simp [hopen]⟩)
  obtain ⟨hmem, hid, -⟩ := findWindow_some hw'
  rw [hw', eq_of_numbered hl.windows hmem hw hid]

/-- What is handed over and what is there are the same windows. -/
theorem mem_placements {rt : Runtime} {s : State} (hm : Mirror rt)
    (ht : Told doomed rt.delivered s) (hl : Ledger s) (i : Nat) :
    i ∈ (renderPolicy rt.runtimePolicy).map Placement.placementWindow
      ↔ (findWindow i s).isSome := by
  rw [map_placementWindow, StackSet.mem_allWindows]
  exact mem_windows_of_told hm ht hl i

/-- After a transaction the display is the policy's. -/
theorem Managed.displayed {rt : Runtime} {s s' : State} {i : Nat} {v v' : View}
    (hm : Mirror rt) (ht : Told doomed rt.delivered s') (hl : Ledger s')
    (h : Managed i s' rt.runtimePolicy v v') (hv : Displayed i s v) (hnext : s.nextId ≤ s'.nextId) :
    Displayed i s' v' := by
  have hplaced : ∀ w ∈ s'.windows, w.id = i → ∃ pl : Placement,
      Shows pl.placing (liveOutputs s') w v' ∧ Obeys pl.placing (liveOutputs s') (layerHasFocus s') w := by
    intro w hw hid
    have hfound := findWindow_of_mem hl hw (ht.announced.windows w hw).1
    rw [hid] at hfound
    obtain ⟨pl, hpl, hid⟩ :=
      List.mem_map.mp ((mem_placements hm ht hl i).mpr (Option.isSome_iff_exists.mpr ⟨w, hfound⟩))
    obtain ⟨hshows, -, hobeys⟩ := h.placed pl hpl hid w hfound
    exact ⟨pl, hshows, hobeys⟩
  refine ⟨fun w hw hid => ?_, fun w hw hid => ?_, fun hlt => ?_⟩
  · obtain ⟨pl, hshows, -⟩ := hplaced w hw hid
    exact hshows.seen
  · obtain ⟨pl, -, hobeys⟩ := hplaced w hw hid
    rw [hobeys.fullscreenOutput]
    by_cases hgoal : pl.placing.goal (liveOutputs s') = 0
    · rw [hgoal]
      exact Nat.zero_le _
    · obtain ⟨output, houtput, hid, -⟩ := mem_liveOutputs.mp (goal_mem hgoal)
      rw [← hid]
      exact hl.outputs.bounded _ (List.mem_map_of_mem houtput)
  · have habsent : i ∉ (renderPolicy rt.runtimePolicy).map Placement.placementWindow := by
      rw [mem_placements hm ht hl i]
      intro hsome
      obtain ⟨w, hw⟩ := Option.isSome_iff_exists.mp hsome
      obtain ⟨hmem, hid, -⟩ := findWindow_some hw
      have hbound := hl.windows.bounded _ (List.mem_map_of_mem hmem)
      omega
    obtain ⟨houtput, hinformed, hundefined⟩ := h.absent habsent
    obtain ⟨hnone, hno, hdefined⟩ := hv.fresh (hnext.trans_lt hlt)
    exact ⟨houtput.trans hnone, hinformed.trans hno, hundefined hdefined⟩

end Manage

/-! ## Callbacks -/

section Callbacks

variable {i : Nat} {s s' : State} {v : View}

/-- What places nothing keeps the display. -/
theorem Displayed.unplaced (h : Displayed i s v) (hs : Unplaced s s') : Displayed i s' v := by
  have hold : ∀ w' ∈ s'.windows, w'.id = i → ∃ w ∈ s.windows, w.id = i ∧ w'.stance = w.stance := by
    intro w' hw' hid
    obtain ⟨w, hw, hstance⟩ := hs.window hw'
    exact ⟨w, hw, (congrArg Stance.id hstance).trans hid, hstance.symm⟩
  refine ⟨fun w' hw' hid => ?_, fun w' hw' hid => ?_, fun hlt => h.fresh (hs.nextId.trans_lt hlt)⟩
  · obtain ⟨w, hw, hid, hstance⟩ := hold w' hw' hid
    rw [hs.outputs]
    exact (h.seen w hw hid).congr (congrArg Stance.fullscreenOutput hstance)
      (congrArg Stance.exitedFullscreen hstance) rfl rfl rfl
  · obtain ⟨w, hw, hid, hstance⟩ := hold w' hw' hid
    have hbound := (h.bounded w hw hid).trans hs.nextId
    exact (congrArg Stance.fullscreenOutput hstance).trans_le hbound

/-- Output 0 is never live. -/
theorem zero_not_live (hl : Ledger s) : 0 ∉ liveOutputs s := by
  intro hmem
  obtain ⟨output, houtput, hid, -⟩ := mem_liveOutputs.mp hmem
  have hpos := hl.outputs.positive _ (List.mem_map_of_mem houtput)
  omega

/-- Announcing a window keeps the display of the others. -/
theorem displayed_managerWindow (hl : Ledger s) (hf : (managerWindow s).failed = false)
    (h : Displayed i s v) : Displayed i (managerWindow s) v := by
  obtain ⟨-, heq⟩ := newId_of_not_failed (s := s) hf
  have hwindows : (managerWindow s).windows = s.windows ++ [{ id := s.nextId + 1 }] := by
    simp only [managerWindow, heq]
  have hnext : (managerWindow s).nextId = s.nextId + 1 := by simp only [managerWindow, heq]
  have hlive : liveOutputs (managerWindow s) = liveOutputs s := by
    simp only [liveOutputs, managerWindow, heq]
  refine ⟨fun w hw hid => ?_, fun w hw hid => ?_, fun hlt => h.fresh (by omega)⟩
  · rw [hlive]
    rcases List.mem_append.mp (hwindows ▸ hw) with hw | hw
    · exact h.seen w hw hid
    · rw [List.mem_singleton.mp hw] at hid ⊢
      obtain ⟨houtput, hinformed, hundefined⟩ := h.fresh (hid ▸ Nat.lt_succ_self _)
      refine ⟨?_, hinformed, fun hv => absurd (hundefined.symm.trans hv) Bool.false_ne_true⟩
      rw [houtput, if_neg (zero_not_live hl)]
  · rw [hnext]
    rcases List.mem_append.mp (hwindows ▸ hw) with hw | hw
    · exact (h.bounded w hw hid).trans (Nat.le_succ _)
    · rw [List.mem_singleton.mp hw]
      exact Nat.zero_le _

/-- Announcing an output keeps the display. -/
theorem displayed_managerOutput (hf : (managerOutput s).failed = false) (h : Displayed i s v) :
    Displayed i (managerOutput s) v := by
  simp only [managerOutput, failed_attachLayerOutput] at hf
  obtain ⟨-, heq⟩ := newId_of_not_failed (s := s) hf
  simp only [managerOutput, heq]
  refine Displayed.unplaced ?_ (unplaced_attachLayerOutput _ _)
  -- The new number belongs to no window that is fullscreen.
  refine ⟨fun w hw hid => ?_, fun w hw hid => (h.bounded w hw hid).trans (Nat.le_succ _),
    fun hlt => h.fresh (Nat.lt_of_succ_lt hlt)⟩
  have hold := h.seen w hw hid
  have hbound := h.bounded w hw hid
  refine ⟨?_, hold.informed, hold.owed⟩
  have hmem : (w.fullscreenOutput ∈ liveOutputs { s with
      nextId := s.nextId + 1, issued := s.issued ++ [s.nextId + 1]
      outputs := s.outputs ++ [{ id := s.nextId + 1 }] }) ↔ w.fullscreenOutput ∈ liveOutputs s := by
    simp only [liveOutputs, List.filter_append, List.map_append, List.mem_append]
    refine or_iff_left fun hnew => ?_
    obtain ⟨output, houtput, hnumber⟩ := List.mem_map.mp hnew
    rw [List.mem_singleton.mp (List.mem_filter.mp houtput).1] at hnumber
    change s.nextId + 1 = w.fullscreenOutput at hnumber
    omega
  rw [hold.output, if_congr hmem rfl rfl]

/-- A removed output is live no more, the others stay. -/
theorem mem_liveOutputs_removed (s : State) (o o' : Nat) :
    o' ∈ liveOutputs (outputRemoved o s) ↔ o' ≠ o ∧ o' ∈ liveOutputs s := by
  have houtputs : (outputRemoved o s).outputs = s.outputs.map fun output =>
      if output.id = o then { output with removed := true } else output := rfl
  rw [mem_liveOutputs, mem_liveOutputs, houtputs]
  constructor
  · rintro ⟨output, hmem, hid, hlive⟩
    obtain ⟨old, hold, rfl⟩ := List.mem_map.mp hmem
    split at hid
    · next heq =>
      rw [if_pos heq] at hlive
      contradiction
    · next hne =>
      rw [if_neg hne] at hlive
      exact ⟨hid ▸ hne, old, hold, hid, hlive⟩
  · rintro ⟨hne, output, hmem, hid, hlive⟩
    refine ⟨output, List.mem_map.mpr ⟨output, hmem, if_neg ?_⟩, hid, hlive⟩
    exact hid ▸ hne

/-- Removing an output keeps the display in step. -/
theorem displayed_outputRemoved (hl : Ledger s) (o : Nat) (h : Displayed i s v) :
    Displayed i (outputRemoved o s) (v.tell (.outputRemoved o)) := by
  have hpositive : ∀ o' ∈ liveOutputs s, o' ≠ 0 := by
    intro o' hmem
    obtain ⟨output, houtput, hid, -⟩ := mem_liveOutputs.mp hmem
    exact hid ▸ Nat.one_le_iff_ne_zero.mp (hl.outputs.positive _ (List.mem_map_of_mem houtput))
  refine ⟨fun w hw hid => ?_, fun w hw hid => h.bounded w hw hid, fun hlt => ?_⟩
  · have hold := h.seen w hw hid
    by_cases hon : v.output = some o
    · -- The window was fullscreen on the output.
      have hgone : w.fullscreenOutput ∈ liveOutputs s ∧ w.fullscreenOutput = o := by
        rw [hold.output] at hon
        split at hon
        · next hmem => exact ⟨hmem, Option.some.inj hon⟩
        · contradiction
      have hnot : w.fullscreenOutput ∉ liveOutputs (outputRemoved o s) := fun hmem =>
        ((mem_liveOutputs_removed s o _).mp hmem).1 hgone.2
      simp only [View.tell, if_pos hon]
      refine ⟨?_, hold.informed, fun _ => Or.inr (hpositive _ hgone.1)⟩
      rw [if_neg hnot]
      rfl
    · simp only [View.tell, if_neg hon]
      refine ⟨?_, hold.informed, hold.owed⟩
      have hmem : w.fullscreenOutput ∈ liveOutputs (outputRemoved o s)
          ↔ w.fullscreenOutput ∈ liveOutputs s := by
        rw [mem_liveOutputs_removed]
        refine and_iff_right_of_imp fun hmem heq => hon ?_
        rw [hold.output, if_pos hmem, heq]
      rw [hold.output, if_congr hmem rfl rfl]
  · obtain ⟨hnone, hno, hdefined⟩ := h.fresh hlt
    have hon : v.output ≠ some o := by
      rw [hnone]
      nofun
    simp only [View.tell, if_neg hon]
    exact ⟨hnone, hno, hdefined⟩

end Callbacks

end XmonadWayland.Bridge
