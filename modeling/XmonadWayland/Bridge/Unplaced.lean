import XmonadWayland.Bridge.Passes
import XmonadWayland.Bridge.View

/-!
# XmonadWayland.Bridge.Unplaced

What does not place a window.  Apart from the setters, and from what corrects a position while
rendering, no function changes where a record stands (`Stance`) or asks for anything that the
compositor would show (`Unplaced`).
-/

namespace XmonadWayland.Bridge

/-- The outputs the compositor has not removed. -/
def liveOutputs (s : State) : List Nat := (s.outputs.filter fun o => !o.removed).map Output.id

/-- An output is live exactly when recorded and not removed. -/
theorem mem_liveOutputs {s : State} {o : Nat} :
    o ∈ liveOutputs s ↔ ∃ output ∈ s.outputs, output.id = o ∧ output.removed = false := by
  simp only [liveOutputs, List.mem_map, List.mem_filter, Bool.not_eq_true']
  constructor
  · rintro ⟨output, ⟨hmem, hlive⟩, hid⟩
    exact ⟨output, hmem, hid, hlive⟩
  · rintro ⟨output, hmem, hid, hlive⟩
    exact ⟨output, ⟨hmem, hlive⟩, hid⟩

/-- Nothing is placed: records keep their stances, though some may go. -/
structure Unplaced (s s' : State) : Prop where
  stances : (s'.windows.map Window.stance).Sublist (s.windows.map Window.stance)
  outputs : liveOutputs s' = liveOutputs s
  requests : ∃ extra, s'.requests = s.requests ++ extra ∧ ∀ r ∈ extra, r.displays = false
  nextId : s.nextId ≤ s'.nextId

namespace Unplaced

variable {s s' s'' : State}

theorem trans (h : Unplaced s s') (h' : Unplaced s' s'') : Unplaced s s'' := by
  obtain ⟨extra, heq, hfree⟩ := h.requests
  obtain ⟨extra', heq', hfree'⟩ := h'.requests
  exact ⟨h'.stances.trans h.stances, h'.outputs.trans h.outputs,
    ⟨extra ++ extra', by rw [heq', heq, List.append_assoc],
      fun r hr => (List.mem_append.mp hr).elim (hfree r) (hfree' r)⟩, h.nextId.trans h'.nextId⟩

/-- Records as they are, and requests that place nothing. -/
theorem tell {requests : List Request} (hw : s'.windows = s.windows) (ho : s'.outputs = s.outputs)
    (hn : s'.nextId = s.nextId) (hr : s'.requests = s.requests ++ requests)
    (hfree : ∀ r ∈ requests, r.displays = false) : Unplaced s s' :=
  ⟨hw ▸ List.Sublist.refl _, by rw [liveOutputs, ho]; rfl, ⟨requests, hr, hfree⟩, hn.ge⟩

theorem fields (hw : s'.windows = s.windows) (ho : s'.outputs = s.outputs)
    (hn : s'.nextId = s.nextId) (hr : s'.requests = s.requests) : Unplaced s s' :=
  .tell hw ho hn (hr.trans (List.append_nil _).symm) nofun

theorem refl (s : State) : Unplaced s s := .fields rfl rfl rfl rfl

theorem mapWindows {f : Window → Window} (hf : ∀ w, (f w).stance = w.stance)
    (hw : s'.windows = s.windows.map f) (ho : s'.outputs = s.outputs) (hn : s'.nextId = s.nextId)
    (hr : s'.requests = s.requests) : Unplaced s s' := by
  have hsame : s.windows.map (Window.stance ∘ f) = s.windows.map Window.stance :=
    List.map_congr_left fun w _ => hf w
  refine ⟨?_, by rw [liveOutputs, ho]; rfl, ⟨[], by rw [hr, List.append_nil], nofun⟩, hn.ge⟩
  rw [hw, List.map_map, hsame]

theorem modifyWindow (id : Nat) {f : Window → Window} (hf : ∀ w, (f w).stance = w.stance)
    (s : State) : Unplaced s (modifyWindow id f s) := by
  refine mapWindows (fun w => ?_) rfl rfl rfl rfl
  split
  · exact hf w
  · rfl

theorem modifyOutput (id : Nat) {f : Output → Output}
    (hf : ∀ o, (f o).id = o.id ∧ (f o).removed = o.removed) (s : State) :
    Unplaced s (modifyOutput id f s) := by
  refine ⟨List.Sublist.refl _, ?_, ⟨[], (List.append_nil _).symm, nofun⟩, le_rfl⟩
  simp only [liveOutputs, Bridge.modifyOutput]
  induction s.outputs with
  | nil => rfl
  | cons o outputs ih =>
      have hsame : (if o.id = id then f o else o).id = o.id
          ∧ (if o.id = id then f o else o).removed = o.removed := by
        split
        · exact hf o
        · exact ⟨rfl, rfl⟩
      rw [List.map_cons, List.filter_cons, List.filter_cons, hsame.2]
      split
      · rw [List.map_cons, List.map_cons, hsame.1, ih]
      · exact ih

theorem foldl {α : Type} {f : State → α → State} (hf : ∀ t a, Unplaced t (f t a)) (l : List α)
    (s : State) : Unplaced s (l.foldl f s) :=
  List.foldlRecOn (motive := fun t => Unplaced s t) l f (refl s) fun t ht a _ => ht.trans (hf t a)

/-- A record afterwards is one from before. -/
theorem window (h : Unplaced s s') {w' : Window} (hw' : w' ∈ s'.windows) :
    ∃ w ∈ s.windows, w.stance = w'.stance :=
  List.mem_map.mp (h.stances.subset (List.mem_map_of_mem hw'))

/-- Nothing becomes known of any window. -/
theorem foldl_ask {sent : List Request} (h : Unplaced s s')
    (hsent : s'.requests = s.requests ++ sent) (i : Nat) (v : View) : sent.foldl (View.ask i) v = v := by
  obtain ⟨extra, heq, hfree⟩ := h.requests
  obtain rfl := List.append_cancel_left (hsent.symm.trans heq)
  exact foldl_of_fixed fun r hr => ask_of_not_displays (hfree r hr)

end Unplaced

/-! ## Callbacks -/

section Callbacks

variable (s : State)

/-- A failure places nothing. -/
theorem unplaced_fail (message : String) : Unplaced s (fail message s) := .fields rfl rfl rfl rfl

/-- Unless an output goes, what the compositor reports places nothing. -/
theorem unplaced_of_pieces {cb : Callback} {s s' : State} (h : ∀ id, cb ≠ .outputRemoved id)
    (hpieces : Pieces cb s s') : Unplaced s s' := by
  refine hpieces.keeps Unplaced.refl Unplaced.trans fun hpiece => ?_
  cases hpiece with
  | flags _ hf => exact .fields hf.windows hf.outputs hf.nextId hf.requests
  | window id f hf => exact .modifyWindow id (fun w => (hf w).stance) _
  | output id f hf => exact .modifyOutput id (fun o => ⟨(hf o).id, (hf o).kept h⟩) _
  | seat => exact .fields rfl rfl rfl rfl
  | queue => exact .fields rfl rfl rfl rfl
  | attach request _ hlayer =>
      refine .tell rfl rfl rfl rfl fun r hr => ?_
      rw [List.mem_singleton.mp hr]
      cases request <;> first | rfl | contradiction
  | failure => exact .fields rfl rfl rfl rfl

/-- Attaching a layer-shell output places nothing. -/
theorem unplaced_attachLayerOutput (id : Nat) : Unplaced s (attachLayerOutput id s) :=
  unplaced_of_pieces (fun _ => by exact nofun) (Pieces.attachLayerOutput rfl id s : Pieces .managerOutput s _)

/-- Attaching a layer-shell seat places nothing. -/
theorem unplaced_attachLayerSeat (id : Nat) : Unplaced s (attachLayerSeat id s) :=
  unplaced_of_pieces (fun _ => by exact nofun) (Pieces.attachLayerSeat rfl id s : Pieces .managerSeat s _)

/-- Dealing an id places nothing. -/
theorem unplaced_newId : Unplaced s (newId s).2 := by
  rcases newId_cases s with h | h <;> rw [h]
  · exact unplaced_fail s _
  · exact ⟨List.Sublist.refl _, rfl, ⟨[], (List.append_nil _).symm, nofun⟩, Nat.le_succ _⟩

/-- Announcing a seat places nothing. -/
theorem unplaced_managerSeat : Unplaced s (managerSeat s) := by
  refine (unplaced_newId s).trans (Unplaced.trans ?_ (unplaced_attachLayerSeat _ _))
  exact .fields rfl rfl rfl rfl

/-- Callbacks after which a window or an output is there that was not, or is not any more. -/
def changesDisplay : Callback → Bool
  | .managerWindow => true
  | .managerOutput => true
  | .outputRemoved _ => true
  | _ => false

/-- A callback that changes no display places nothing. -/
theorem unplaced_listen {cb : Callback} (h : changesDisplay cb = false) :
    Unplaced s (listen cb s) := by
  refine listen_cases (P := fun cb s' => changesDisplay cb = false → Unplaced s s') ?_ ?_
    (fun _ => unplaced_managerSeat s) (fun cb s' hpieces hcb => ?_) cb h
  · exact Bool.noConfusion
  · exact Bool.noConfusion
  · refine unplaced_of_pieces ?_ hpieces
    rintro id rfl
    contradiction

end Callbacks

/-! ## Functions that Haskell calls -/

section Calls

variable (s : State)

/-- Adding a binding places nothing. -/
theorem unplaced_xwAddBinding (keysym modifiers index mode : Nat) :
    Unplaced s (xwAddBinding keysym modifiers index mode s) := by
  unfold xwAddBinding
  split
  · split
    · exact unplaced_fail s _
    · exact .tell rfl rfl rfl rfl (by simp [Request.displays])
  · exact unplaced_fail s _

/-- Configuring a seat places nothing. -/
theorem unplaced_configureSeat (cfg : Config) (seat : Seat) :
    Unplaced s (configureSeat cfg seat s) := by
  have hbindings : ∀ t : State, Unplaced t (xwConfigureBindings cfg t) :=
    Unplaced.foldl (fun t _ => unplaced_xwAddBinding t _ _ _ _) _
  refine Unplaced.trans ?_ ((hbindings _).trans (.fields rfl rfl rfl rfl))
  exact .tell rfl rfl rfl rfl (List.forall_mem_map.mpr fun _ _ => rfl)

/-- Switching the binding mode places nothing. -/
theorem unplaced_xwSetBindingMode (mode : Nat) : Unplaced s (xwSetBindingMode mode s) := by
  unfold xwSetBindingMode
  split
  · exact unplaced_fail s _
  · simp only
    split
    · exact .fields rfl rfl rfl rfl
    · refine .tell rfl rfl rfl rfl fun r hr => ?_
      rcases List.mem_append.mp hr with hr | hr <;>
        obtain ⟨binding, -, rfl⟩ := List.mem_map.mp hr <;> split <;> rfl

theorem unplaced_xwResetBindings (cfg : Config) : Unplaced s (xwResetBindings cfg s) := by
  unfold xwResetBindings
  split
  · exact unplaced_fail s _
  · split
    · exact .refl s
    · refine Unplaced.trans ?_
        ((unplaced_configureSeat _ cfg _).trans (unplaced_xwSetBindingMode _ _))
      exact .tell rfl rfl rfl rfl (List.forall_mem_map.mpr fun _ _ => rfl)

theorem unplaced_endOperation : Unplaced s (endOperation s) := by
  have hended : ∀ seat : Seat,
      Unplaced s (send [.opEnd seat.id] (modifySeat seat.id Seat.settle s)) := fun _ =>
    .tell rfl rfl rfl rfl (by simp [Request.displays])
  have hinformed : ∀ (w : Window) t, Unplaced s t →
      Unplaced s (if s.pointerEdges ≠ 0 then send [.informResizeEnd w.id] t else t) := by
    intro w t ht
    split
    · exact ht.trans (.tell rfl rfl rfl rfl (by simp [Request.displays]))
    · exact ht
  have hforget : ∀ t : State,
      Unplaced t { t with pointerSeat := 0, pointerWindow := 0, pointerEdges := 0 } :=
    fun _ => .fields rfl rfl rfl rfl
  unfold endOperation
  refine Unplaced.trans ?_ (hforget _)
  cases findSeat s.pointerSeat s with
  | none =>
      cases findWindow s.pointerWindow s with
      | none => exact .refl s
      | some w => exact hinformed w s (.refl s)
  | some seat =>
      cases findWindow s.pointerWindow s with
      | none => exact hended seat
      | some w => exact hinformed w _ (hended seat)

theorem unplaced_startOperation (seat : Seat) (window : Window) (edges : Nat) :
    Unplaced s (startOperation seat window edges s) := by
  have hstarted : Unplaced s (send [.opStartPointer seat.id] (modifySeat seat.id Seat.settle
      { s with pointerSeat := seat.id, pointerWindow := window.id, pointerEdges := edges })) :=
    .tell rfl rfl rfl rfl (by simp [Request.displays])
  unfold startOperation
  simp only
  split
  · exact hstarted.trans (.tell rfl rfl rfl rfl (by simp [Request.displays]))
  · exact hstarted

theorem unplaced_xwSetPointerOperation (seatId windowId edges : Nat) :
    Unplaced s (xwSetPointerOperation seatId windowId edges s) := by
  unfold xwSetPointerOperation
  split
  · exact unplaced_fail s _
  · split
    · exact .refl s
    · split
      · split
        · exact (unplaced_endOperation s).trans (unplaced_fail _ _)
        · exact unplaced_endOperation s
      · split
        · exact .refl s
        · split
          · split
            · exact .refl s
            · exact unplaced_startOperation s _ _ _
          · exact .refl s

theorem unplaced_requireManage {f : State → State} (hf : ∀ t, Unplaced t (f t)) :
    Unplaced s (requireManage f s) := by
  unfold requireManage
  split
  · exact .refl s
  · split
    · exact unplaced_fail s _
    · exact hf s

theorem unplaced_xwSetOutput (id : Nat) : Unplaced s (xwSetOutput id s) := by
  refine unplaced_requireManage s fun t => ?_
  simp only
  split
  · exact .tell rfl rfl rfl rfl (by simp [Request.displays])
  · exact .fields rfl rfl rfl rfl

/-- Focusing places nothing. -/
theorem unplaced_xwFocus (id : Nat) : Unplaced s (xwFocus id s) := by
  have hclear : ∀ (t : State) (seat : Seat), Unplaced t (send [.clearFocus seat.id] t) :=
    fun _ _ => .tell rfl rfl rfl rfl (by simp [Request.displays])
  refine unplaced_requireManage s fun t => ?_
  split
  · exact .refl t
  · split
    · exact .refl t
    · split
      · split
        · exact .tell rfl rfl rfl rfl (by simp [Request.displays])
        · exact hclear t _
      · exact hclear t _

theorem unplaced_xwClose (id : Nat) : Unplaced s (xwClose id s) := by
  refine unplaced_requireManage s fun t => ?_
  split
  · exact .refl t
  · split
    · exact .tell rfl rfl rfl rfl (by simp [Request.displays])
    · exact .refl t

theorem unplaced_sendStop : Unplaced s (sendStop s) := by
  unfold sendStop
  split
  · exact .tell rfl rfl rfl rfl (by simp [Request.displays])
  · exact .refl s

theorem unplaced_xwStop : Unplaced s (xwStop s) := by
  have hrequested : Unplaced s { s with stopRequested := true } := .fields rfl rfl rfl rfl
  unfold xwStop
  simp only
  split
  · exact hrequested.trans (unplaced_sendStop _)
  · exact hrequested

/-- Executing an effect places nothing. -/
theorem unplaced_execute (sys : System) (effect : Effect) :
    Unplaced sys.bridge (execute sys effect).bridge := by
  cases effect with
  | closeWindow wid => exact unplaced_xwClose _ wid
  | stopRuntime => exact unplaced_xwStop _
  | reloadConfig =>
      simp only [execute, reload]
      split
      · exact .refl _
      · exact (unplaced_xwResetBindings _ _).trans (unplaced_xwSetBindingMode _ _)
  | _ => exact .refl _

end Calls

/-! ## The stages before the hand over -/

section Stages

/-- Records keep their stances but for new nodes, and of what is known of a window only the tiled
edges change. -/
structure Readied (s s' : State) : Prop where
  windows : ∀ w' ∈ s'.windows, ∃ w ∈ s.windows, w'.stance = { w.stance with node := w'.node }
  outputs : liveOutputs s' = liveOutputs s
  requests : ∃ extra, s'.requests = s.requests ++ extra
    ∧ ∀ i (v : View), ∃ edges, extra.foldl (View.ask i) v = { v with tiled := edges }
  nextId : s.nextId ≤ s'.nextId

/-- What places nothing leaves the windows ready. -/
theorem Unplaced.readied {s s' : State} (h : Unplaced s s') : Readied s s' := by
  obtain ⟨extra, heq, -⟩ := h.requests
  refine ⟨fun w' hw' => ?_, h.outputs, ⟨extra, heq, fun i v => ⟨v.tiled, h.foldl_ask heq i v⟩⟩,
    h.nextId⟩
  obtain ⟨w, hw, hstance⟩ := h.window hw'
  exact ⟨w, hw, by rw [hstance]; rfl⟩

theorem Readied.trans {s s' s'' : State} (h : Readied s s') (h' : Readied s' s'') :
    Readied s s'' := by
  obtain ⟨extra, heq, htiled⟩ := h.requests
  obtain ⟨extra', heq', htiled'⟩ := h'.requests
  refine ⟨fun w'' hw'' => ?_, h'.outputs.trans h.outputs,
    ⟨extra ++ extra', by rw [heq', heq, List.append_assoc], fun i v => ?_⟩,
    h.nextId.trans h'.nextId⟩
  · obtain ⟨w', hw', hstance'⟩ := h'.windows w'' hw''
    obtain ⟨w, hw, hstance⟩ := h.windows w' hw'
    exact ⟨w, hw, by rw [hstance', hstance]⟩
  obtain ⟨edges, hedges⟩ := htiled i v
  obtain ⟨edges', hedges'⟩ := htiled' i { v with tiled := edges }
  exact ⟨edges', by rw [List.foldl_append, hedges, hedges']⟩

/-- Dropping removed outputs keeps the live ones. -/
theorem liveOutputs_filter {s s' : State}
    (ho : s'.outputs = s.outputs.filter fun o => !o.removed) : liveOutputs s' = liveOutputs s := by
  rw [liveOutputs, liveOutputs, ho, List.filter_filter]
  simp only [Bool.and_self]

theorem unplaced_dropped (sys : System) :
    Unplaced sys.bridge (publishOutputs (dropWindows (dropOutputs sys))).bridge := by
  have houtputs : Unplaced sys.bridge (dropOutputs sys).bridge :=
    ⟨List.Sublist.refl _, liveOutputs_filter rfl, ⟨_, rfl, List.forall_mem_map.mpr fun _ _ => rfl⟩,
      le_rfl⟩
  have hwindows : Unplaced (dropOutputs sys).bridge (dropWindows (dropOutputs sys)).bridge :=
    ⟨List.filter_sublist.map _, rfl, ⟨_, rfl, List.forall_mem_map.mpr fun _ _ => rfl⟩, le_rfl⟩
  refine (houtputs.trans hwindows).trans ?_
  generalize dropWindows (dropOutputs sys) = dropped
  have hpublished : Unplaced dropped.bridge { dropped.bridge with
      outputs := (dropped.bridge.outputs.takeWhile Output.complete).map Output.published
        ++ dropped.bridge.outputs.dropWhile Output.complete } := by
    refine ⟨List.Sublist.refl _, ?_, ⟨[], (List.append_nil _).symm, nofun⟩, le_rfl⟩
    conv => rhs; rw [liveOutputs, ← List.takeWhile_append_dropWhile (p := Output.complete)
      (l := dropped.bridge.outputs)]
    simp only [liveOutputs, List.filter_append, List.map_append, List.filter_map, List.map_map]
    rfl
  unfold publishOutputs
  simp only
  split
  · exact hpublished
  · exact hpublished.trans (unplaced_fail _ _)

/-- New windows are told their edges. -/
theorem readied_announceWindows (sys : System) :
    Readied sys.bridge (announceWindows sys).bridge := by
  refine ⟨fun w' hw' => ?_, rfl, ⟨_, rfl, fun i v => ?_⟩, le_rfl⟩
  · obtain ⟨w, hw, rfl⟩ := List.mem_map.mp hw'
    exact ⟨w, hw, rfl⟩
  · change ∃ edges, (sys.bridge.windows.flatMap Window.configureRequests).foldl (View.ask i) v = _
    induction sys.bridge.windows generalizing v with
    | nil => exact ⟨v.tiled, rfl⟩
    | cons w windows ih =>
        have hfirst : ∃ edges,
            w.configureRequests.foldl (View.ask i) v = { v with tiled := edges } := by
          unfold Window.configureRequests
          split
          · exact ⟨v.tiled, rfl⟩
          · by_cases hid : w.id = i
            · exact ⟨15, by simp [View.ask, hid]⟩
            · exact ⟨v.tiled, by simp [View.ask, hid]⟩
        obtain ⟨edges, hedges⟩ := hfirst
        obtain ⟨edges', hedges'⟩ := ih { v with tiled := edges }
        exact ⟨edges', by rw [List.flatMap_cons, List.foldl_append, hedges, hedges']⟩

theorem unplaced_announced (sys : System) :
    Unplaced sys.bridge ((dropSeats (publishMetadata sys)).onBridge fun s =>
      xwSetBindingMode s.bindingMode (configurePrimary
        (dropSeats (publishMetadata sys)).runtime.runtimeConfig s)).bridge := by
  have hmetadata : Unplaced sys.bridge (publishMetadata sys).bridge :=
    .mapWindows (f := Window.published) (fun _ => rfl) rfl rfl rfl rfl
  have hseats : Unplaced (publishMetadata sys).bridge (dropSeats (publishMetadata sys)).bridge :=
    .tell rfl rfl rfl rfl (List.forall_mem_map.mpr fun _ _ => rfl)
  refine (hmetadata.trans hseats).trans (Unplaced.trans ?_ (unplaced_xwSetBindingMode _ _))
  unfold configurePrimary
  split
  · split
    · exact .refl _
    · exact unplaced_configureSeat _ _ _
  · exact .refl _

/-- The lifecycle update readies the windows. -/
theorem readied_updateLifecycle (sys : System) :
    Readied sys.bridge (updateLifecycle sys).bridge := by
  unfold updateLifecycle
  simp only
  split
  · exact (unplaced_dropped sys).readied
  · exact ((unplaced_dropped sys).readied.trans (readied_announceWindows _)).trans
      (unplaced_announced _).readied

/-- From the lifecycle to the hand over. -/
theorem unplaced_afterLifecycle (sys : System) : Unplaced sys.bridge (publishDrag (drainInput
    ((cancelOperation sys).onBridge
      (modifyPrimary fun seat => { seat with layerFocusOverride := false })))).bridge := by
  have hfocus : Unplaced sys.bridge ((cancelOperation sys).onBridge
      (modifyPrimary fun seat => { seat with layerFocusOverride := false })).bridge := by
    rw [System.onBridge, bridge_cancelOperation]
    unfold modifyPrimary
    simp only
    split
    · exact .fields rfl rfl rfl rfl
    · exact .refl _
  have hdrained : ∀ t : System, Unplaced t.bridge (drainInput t).bridge := by
    intro t
    have hfold : Unplaced t.bridge (t.bridge.input.foldl drainEvent t).bridge :=
      drainEvents_induction _ (.refl _) fun _ _ h => h.trans (.fields rfl rfl rfl rfl)
    exact hfold.trans (.fields rfl rfl rfl rfl)
  refine (hfocus.trans (hdrained _)).trans ?_
  generalize drainInput _ = drained
  rcases publishDrag_cases drained with h | ⟨id, events, -, h⟩ <;> rw [h]
  · exact .refl _
  · exact .fields rfl rfl rfl rfl

/-- Handing the events over leaves them ready. -/
theorem readied_handedOver (sys : System) : Readied sys.bridge (handedOver sys).bridge := by
  have hbegin : Unplaced sys.bridge
      (publishLock (sys.onBridge fun s => { s with phase := .manage })).bridge := by
    unfold publishLock
    split <;> exact .fields rfl rfl rfl rfl
  exact (hbegin.readied.trans (readied_updateLifecycle _)).trans (unplaced_afterLifecycle _).readied

end Stages

end XmonadWayland.Bridge
