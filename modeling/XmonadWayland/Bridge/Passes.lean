import XmonadWayland.Bridge.Desk
import XmonadWayland.Bridge.Fullscreen
import XmonadWayland.Bridge.Locked
import XmonadWayland.Bridge.Rendering

/-!
# XmonadWayland.Bridge.Passes

Runs of the bridge in which Haskell places the windows as it likes.  Between two passes
outputs come and go, windows are created and closed, and nothing of it touches what the
setters keep of a window (`Spares`); so the requests of a whole run pair up, and a window
that left fullscreen gets its geometry back when it is next shown (`fullscreen_paired`).
-/

namespace XmonadWayland.Bridge

/-! ## What leaves a window alone -/

/-- Outside the setters a record keeps its standing, and a closed one stays closed. -/
structure Spared (w w' : Window) : Prop where
  standing : w'.standing = w.standing
  visible : w'.visible = w.visible
  closed : w.closed = true → w'.closed = true
  node : w.node = true → w'.node = true
  configured : w'.configured = true → w.configured = true ∨ w'.node = true

theorem Spared.refl (w : Window) : Spared w w := ⟨rfl, rfl, fun h => h, fun h => h, Or.inl⟩

theorem Spared.trans {w w' w'' : Window} (h : Spared w w') (h' : Spared w' w'') : Spared w w'' :=
  ⟨h'.standing.trans h.standing, h'.visible.trans h.visible, fun hc => h'.closed (h.closed hc),
    fun hn => h'.node (h.node hn),
    fun hc => (h'.configured hc).elim (fun hc => (h.configured hc).imp_right h'.node) Or.inr⟩

/-- Records of id `i` are spared, none appears, and nothing is said about the window. -/
structure Spares (i : Nat) (s s' : State) : Prop where
  windows : ∀ w' ∈ s'.windows, w'.id = i → ∃ w ∈ s.windows, w.id = i ∧ Spared w w'
  requests : ∃ extra, s'.requests = s.requests ++ extra ∧ ∀ r ∈ extra, r.concerns i = false
  next : s.nextId ≤ s'.nextId

namespace Spares

variable {i : Nat} {s s' s'' : State}

theorem trans (h : Spares i s s') (h' : Spares i s' s'') : Spares i s s'' := by
  obtain ⟨extra, heq, hfree⟩ := h.requests
  obtain ⟨extra', heq', hfree'⟩ := h'.requests
  refine ⟨fun w'' hw'' hid => ?_, ⟨extra ++ extra', by rw [heq', heq, List.append_assoc],
    fun r hr => (List.mem_append.mp hr).elim (hfree r) (hfree' r)⟩, h.next.trans h'.next⟩
  obtain ⟨w', hw', hid', hspared'⟩ := h'.windows w'' hw'' hid
  obtain ⟨w, hw, hid, hspared⟩ := h.windows w' hw' hid'
  exact ⟨w, hw, hid, hspared.trans hspared'⟩

/-- Only other records differ. -/
theorem of_windows (hw : s'.windows.Sublist s.windows) (hn : s'.nextId = s.nextId)
    {extra : List Request} (hr : s'.requests = s.requests ++ extra)
    (hfree : ∀ r ∈ extra, r.concerns i = false) : Spares i s s' :=
  ⟨fun w hmem hid => ⟨w, hw.subset hmem, hid, Spared.refl w⟩, ⟨extra, hr, hfree⟩, hn.ge⟩

theorem fields (hw : s'.windows = s.windows) (hr : s'.requests = s.requests)
    (hn : s'.nextId = s.nextId) : Spares i s s' :=
  ⟨fun w hmem hid => ⟨w, hw ▸ hmem, hid, Spared.refl w⟩,
    ⟨[], hr.trans (List.append_nil _).symm, nofun⟩, hn.ge⟩

theorem refl (i : Nat) (s : State) : Spares i s s := fields rfl rfl rfl

theorem send {requests : List Request} (hfree : ∀ r ∈ requests, r.concerns i = false) (s : State) :
    Spares i s (send requests s) :=
  of_windows (List.Sublist.refl _) rfl rfl hfree

theorem mapWindows {f : Window → Window} (hf : ∀ w, (f w).id = w.id ∧ Spared w (f w))
    (hw : s'.windows = s.windows.map f) (hr : s'.requests = s.requests)
    (hn : s'.nextId = s.nextId) : Spares i s s' := by
  refine ⟨fun w' hw' hid => ?_, ⟨[], by rw [hr, List.append_nil], nofun⟩, hn.ge⟩
  obtain ⟨w, hmem, rfl⟩ := List.mem_map.mp (hw ▸ hw')
  exact ⟨w, hmem, (hf w).1.symm.trans hid, (hf w).2⟩

theorem modifyWindow (id : Nat) {f : Window → Window}
    (hf : ∀ w, (f w).id = w.id ∧ Spared w (f w)) (s : State) :
    Spares i s (modifyWindow id f s) := by
  refine mapWindows (fun w => ?_) rfl rfl rfl
  split
  · exact hf w
  · exact ⟨rfl, Spared.refl w⟩

theorem foldl {α : Type} {f : State → α → State} (hf : ∀ t a, Spares i t (f t a)) (l : List α)
    (s : State) : Spares i s (l.foldl f s) :=
  List.foldlRecOn (motive := fun t => Spares i s t) l f (refl i s) fun t ht a _ => ht.trans (hf t a)

/-- A configured window has its node. -/
theorem fit (h : Spares i s s')
    (hfit : ∀ w ∈ s.windows, w.id = i → w.configured = true → w.node = true) :
    ∀ w ∈ s'.windows, w.id = i → w.configured = true → w.node = true := by
  intro w' hw' hid hc
  obtain ⟨w, hw, hid, hspared⟩ := h.windows w' hw' hid
  exact (hspared.configured hc).elim (fun hc => hspared.node (hfit w hw hid hc)) fun hn => hn

end Spares

/-! ## Callbacks -/

section Callbacks

variable {i : Nat} (s : State)

/-- A report about a window spares its record. -/
theorem WindowReport.spared {cb : Callback} {w w' : Window} (h : WindowReport cb w w') : Spared w w' where
  standing := by rw [Window.standing, Window.standing, h.fullscreenOutput, h.exitedFullscreen]
  visible := h.visible
  closed := h.closed
  node hnode := h.node.trans hnode
  configured hconfigured := Or.inl (h.configured.symm.trans hconfigured)

/-- One piece of a callback spares every window. -/
theorem spares_of_piece {cb : Callback} {s s' : State} (h : Piece cb s s') : Spares i s s' := by
  cases h with
  | flags _ h => exact .fields h.windows h.requests h.nextId
  | window id f hf => exact .modifyWindow id (fun w => ⟨(hf w).id, (hf w).spared⟩) s
  | output => exact .fields rfl rfl rfl
  | seat => exact .fields rfl rfl rfl
  | queue => exact .fields rfl rfl rfl
  | attach request _ h =>
      refine .send (fun r hr => ?_) s
      rw [List.mem_singleton.mp hr]
      cases request <;> first | rfl | contradiction
  | failure => exact .fields rfl rfl rfl

/-- So does a sequence of pieces. -/
theorem spares_of_pieces {cb : Callback} {s s' : State} (h : Pieces cb s s') : Spares i s s' :=
  h.keeps (Spares.refl i) Spares.trans spares_of_piece

/-- Dealing an id spares every window. -/
theorem spares_newId : Spares i s (newId s).2 := by
  rcases newId_cases s with h | h <;> rw [h]
  · exact .fields rfl rfl rfl
  · exact ⟨fun w hw hid => ⟨w, hw, hid, Spared.refl w⟩, ⟨[], (List.append_nil _).symm, nofun⟩,
      Nat.le_succ _⟩

/-- Announcing an output spares every window. -/
theorem spares_managerOutput : Spares i s (managerOutput s) := by
  refine (spares_newId s).trans (Spares.trans ?_ (spares_of_pieces
    (Pieces.attachLayerOutput rfl _ _ : Pieces .managerOutput _ _)))
  exact .fields rfl rfl rfl

/-- Announcing a seat spares every window. -/
theorem spares_managerSeat : Spares i s (managerSeat s) := by
  refine (spares_newId s).trans (Spares.trans ?_ (spares_of_pieces
    (Pieces.attachLayerSeat rfl _ _ : Pieces .managerSeat _ _)))
  exact .fields rfl rfl rfl

/-- The callbacks other than the creation of a window. -/
theorem spares_listen {cb : Callback} (h : cb ≠ .managerWindow) : Spares i s (listen cb s) := by
  refine listen_cases (P := fun cb s' => cb ≠ .managerWindow → Spares i s s')
    (fun hne => absurd rfl hne) (fun _ => ?_) (fun _ => ?_) (fun cb s' hpieces _ => ?_) cb h
  · exact spares_managerOutput s
  · exact spares_managerSeat s
  · exact spares_of_pieces hpieces

end Callbacks

/-! ## The stages of a manage sequence -/

section Stages

variable {i : Nat}

/-- Publishing outputs spares every window. -/
theorem spares_publishOutputs (sys : System) : Spares i sys.bridge (publishOutputs sys).bridge := by
  unfold publishOutputs
  simp only
  split
  · exact .fields rfl rfl rfl
  · exact .fields rfl rfl rfl

/-- Dropping outputs and windows and publishing spares every window. -/
theorem spares_dropped (sys : System) :
    Spares i sys.bridge (publishOutputs (dropWindows (dropOutputs sys))).bridge := by
  have houtputs : Spares i sys.bridge (dropOutputs sys).bridge :=
    .of_windows (List.Sublist.refl _) rfl rfl (List.forall_mem_map.mpr fun _ _ => rfl)
  have hwindows : Spares i (dropOutputs sys).bridge (dropWindows (dropOutputs sys)).bridge :=
    .of_windows List.filter_sublist rfl rfl (List.forall_mem_map.mpr fun _ _ => rfl)
  exact (houtputs.trans hwindows).trans (spares_publishOutputs _)

/-- Announcing windows spares every window. -/
theorem spares_announceWindows (sys : System) :
    Spares i sys.bridge (announceWindows sys).bridge := by
  have hmap : Spares i sys.bridge { sys.bridge with windows := sys.bridge.windows.map fun w =>
      { w with node := w.node || !w.configured, configured := true, announced := true } } := by
    refine .mapWindows (fun w => ?_) rfl rfl rfl
    refine ⟨rfl, rfl, rfl, fun h => h, fun h => ?_, fun _ => ?_⟩
    · simp [h]
    · cases w.configured <;> simp
  refine hmap.trans (.send (fun r hr => ?_) _)
  obtain ⟨w, -, hr⟩ := List.mem_flatMap.mp hr
  unfold Window.configureRequests at hr
  split at hr
  · contradiction
  · simp only [List.mem_cons, List.not_mem_nil, or_false] at hr
    rcases hr with rfl | rfl | rfl | rfl <;> rfl

/-- Adding a binding spares every window. -/
theorem spares_xwAddBinding (keysym modifiers index mode : Nat) (s : State) :
    Spares i s (xwAddBinding keysym modifiers index mode s) := by
  unfold xwAddBinding
  split
  · split
    · exact .fields rfl rfl rfl
    · exact .of_windows (List.Sublist.refl _) rfl rfl (by simp [Request.concerns])
  · exact .fields rfl rfl rfl

/-- Configuring a seat spares every window. -/
theorem spares_configureSeat (cfg : Config) (seat : Seat) (s : State) :
    Spares i s (configureSeat cfg seat s) := by
  have hbindings : ∀ t : State, Spares i t (xwConfigureBindings cfg t) :=
    Spares.foldl (fun t entry => spares_xwAddBinding _ _ _ _ t) _
  refine Spares.trans ?_ ((hbindings _).trans (Spares.fields rfl rfl rfl))
  refine .of_windows (List.Sublist.refl _) rfl rfl ?_
  exact List.forall_mem_map.mpr fun _ _ => rfl

/-- Switching the binding mode spares every window. -/
theorem spares_xwSetBindingMode (mode : Nat) (s : State) :
    Spares i s (xwSetBindingMode mode s) := by
  unfold xwSetBindingMode
  split
  · exact .fields rfl rfl rfl
  · simp only
    split
    · exact .fields rfl rfl rfl
    · refine .of_windows (List.Sublist.refl _) rfl rfl fun r hr => ?_
      rcases List.mem_append.mp hr with hr | hr <;> obtain ⟨binding, -, rfl⟩ := List.mem_map.mp hr <;>
        split <;> rfl

/-- Configuring the primary seat spares every window. -/
theorem spares_configured (cfg : Config) (s : State) :
    Spares i s (xwSetBindingMode s.bindingMode (configurePrimary cfg s)) := by
  refine Spares.trans ?_ (spares_xwSetBindingMode _ _)
  unfold configurePrimary
  split
  · split
    · exact .refl i s
    · exact spares_configureSeat _ _ _
  · exact .refl i s

/-- The stages after the windows are announced. -/
theorem spares_announced (sys : System) :
    Spares i sys.bridge ((dropSeats (publishMetadata sys)).onBridge fun s =>
      xwSetBindingMode s.bindingMode (configurePrimary
        (dropSeats (publishMetadata sys)).runtime.runtimeConfig s)).bridge := by
  have hpublished : ∀ w : Window, w.published.id = w.id ∧ Spared w w.published :=
    fun w => ⟨rfl, rfl, rfl, fun h => h, fun h => h, Or.inl⟩
  have hmetadata : Spares i sys.bridge (publishMetadata sys).bridge :=
    .mapWindows hpublished rfl rfl rfl
  have hseats : Spares i (publishMetadata sys).bridge (dropSeats (publishMetadata sys)).bridge :=
    .of_windows (List.Sublist.refl _) rfl rfl (List.forall_mem_map.mpr fun _ _ => rfl)
  exact (hmetadata.trans hseats).trans (spares_configured _ _)

/-- The lifecycle update spares every window. -/
theorem spares_updateLifecycle (sys : System) :
    Spares i sys.bridge (updateLifecycle sys).bridge := by
  unfold updateLifecycle
  simp only
  split
  · exact spares_dropped sys
  · exact ((spares_dropped sys).trans (spares_announceWindows _)).trans (spares_announced _)

/-- Draining the queue spares every window. -/
theorem spares_drainInput (sys : System) : Spares i sys.bridge (drainInput sys).bridge := by
  have hfold : Spares i sys.bridge (sys.bridge.input.foldl drainEvent sys).bridge :=
    drainEvents_induction _ (.refl i _) fun _ _ h => h.trans (.fields rfl rfl rfl)
  exact hfold.trans (.fields rfl rfl rfl)

/-- From the lifecycle to the hand over. -/
theorem spares_afterLifecycle (sys : System) : Spares i sys.bridge (publishDrag (drainInput
    ((cancelOperation sys).onBridge
      (modifyPrimary fun seat => { seat with layerFocusOverride := false })))).bridge := by
  have hfocus : Spares i sys.bridge ((cancelOperation sys).onBridge
      (modifyPrimary fun seat => { seat with layerFocusOverride := false })).bridge := by
    rw [System.onBridge, bridge_cancelOperation]
    unfold modifyPrimary
    simp only
    split
    · exact .fields rfl rfl rfl
    · exact .refl i _
  refine (hfocus.trans (spares_drainInput _)).trans ?_
  generalize drainInput _ = drained
  rcases publishDrag_cases drained with h | ⟨id, events, -, h⟩ <;> rw [h]
  · exact .refl i _
  · exact .fields rfl rfl rfl

/-- The start of a manage sequence. -/
theorem spares_begin (sys : System) : Spares i sys.bridge
    (publishLock (sys.onBridge fun s => { s with phase := .manage })).bridge := by
  unfold publishLock
  split <;> exact .fields rfl rfl rfl

/-- Handing the events over spares every window. -/
theorem spares_handedOver (sys : System) : Spares i sys.bridge (handedOver sys).bridge :=
  ((spares_begin sys).trans (spares_updateLifecycle _)).trans (spares_afterLifecycle _)

/-- Sending the stop spares every window. -/
theorem spares_sendStop (s : State) : Spares i s (sendStop s) := by
  unfold sendStop
  split
  · refine .of_windows (List.Sublist.refl _) rfl rfl ?_
    simp [Request.concerns]
  · exact .refl i s

/-- The end of a transaction. -/
theorem spares_finish {g : State → State} (hg : ∀ s, Spares i s (g s)) (s : State) :
    Spares i s (sendStop { (if s.failed then s else g s) with phase := .idle }) := by
  have hif : Spares i s (if s.failed then s else g s) := by
    split
    · exact .refl i s
    · exact hg s
  refine hif.trans (Spares.trans ?_ (spares_sendStop _))
  exact .fields rfl rfl rfl

/-- Answering a manage sequence spares every window. -/
theorem spares_manageFinish (s : State) : Spares i s
    { send [.manageFinish] s with managed := true, awaitingRender := true } := by
  refine .of_windows (List.Sublist.refl _) rfl rfl ?_
  simp [Request.concerns]

/-- The end of a manage transaction spares every window. -/
theorem spares_endManage (s : State) : Spares i s (Desk.endManage s) :=
  spares_finish spares_manageFinish s

/-- Sending the stop leaves the windows as they are. -/
theorem windows_sendStop (s : State) : (sendStop s).windows = s.windows := by
  unfold sendStop
  split <;> rfl

/-- So does the end of a manage transaction. -/
theorem windows_endManage (s : State) : (Desk.endManage s).windows = s.windows := by
  refine (windows_sendStop _).trans ?_
  simp only
  split <;> rfl

/-! ## Rendering -/

/-- Setting a render position spares every window. -/
theorem spares_xwSetRenderPosition (id : Nat) (x y : Int) (s : State) :
    Spares i s (xwSetRenderPosition id x y s) := by
  unfold xwSetRenderPosition
  split
  · exact .fields rfl rfl rfl
  · split
    · exact .refl i s
    · split
      · exact .refl i s
      · refine .modifyWindow id ?_ s
        exact fun w => ⟨rfl, rfl, rfl, fun h => h, fun h => h, Or.inl⟩

/-- Rendering neither proposes dimensions nor changes the fullscreen state. -/
theorem concerns_of_manageOnly {r : Request} (h : r.manageOnly = false) : r.concerns i = false := by
  cases r <;> first | rfl | contradiction

/-- The requests of a render transaction spare every window. -/
theorem spares_renderFinish (s : State) : Spares i s
    { send ((renderable s).flatMap (showRequests s) ++ stackRequests s ++ [.renderFinish]) s
      with awaitingRender := false } :=
  .of_windows (List.Sublist.refl _) rfl rfl fun r hr =>
    concerns_of_manageOnly (manageOnly_renderRequests s r hr)

/-- A render callback spares every window. -/
theorem spares_managerRenderStart (sys : System) :
    Spares i sys.bridge (managerRenderStart sys).bridge := by
  rcases managerRenderStart_cases sys with ⟨-, h⟩ | ⟨message, -, h⟩ | ⟨-, h⟩ <;> rw [h]
  · exact .refl i _
  · exact .fields rfl rfl rfl
  · have hmoved : ∀ t : State, Spares i t ((renderPointerPositions ((sys.onBridge fun s =>
        { s with phase := .render }).deliverAll
          (sizeEvents sys.bridge.windows)).runtime.runtimePolicy).foldl
            (fun s q => xwSetRenderPosition q.1 (bounded q.2.1) (bounded q.2.2) s) t) :=
      Spares.foldl (fun t q => spares_xwSetRenderPosition _ _ _ t) _
    have hstart : Spares i sys.bridge { sys.bridge with phase := .render } := .fields rfl rfl rfl
    exact (hstart.trans (hmoved _)).trans (spares_finish spares_renderFinish _)

end Stages

/-! ## The account of a window -/

/-- What the records say of window `i` is what the compositor was told last. -/
structure Account (i : Nat) (s : State) : Prop where
  ledger : Ledger s
  told : ∀ w ∈ s.windows, w.id = i → inFullscreen i s.requests = w.standing.fullscreen
  fit : ∀ w ∈ s.windows, w.id = i → w.configured = true → w.node = true
  unborn : s.nextId < i → inFullscreen i s.requests = false

/-- The requests pair up, and unless the bridge has failed the account is right. -/
structure Paired (i : Nat) (s : State) : Prop where
  justified : Justified (allowedAfter i) s.requests
  account : s.failed = false → Account i s

section Paired

variable {i : Nat} {s s' : State}

/-- A change that spares the window keeps its account. -/
theorem Account.spares (h : Account i s) (hs : Spares i s s') (hl : Ledger s') : Account i s' := by
  obtain ⟨extra, heq, hfree⟩ := hs.requests
  have hsame : inFullscreen i s'.requests = inFullscreen i s.requests := by
    rw [heq, inFullscreen_append_free i _ hfree]
  refine ⟨hl, fun w' hw' hid => ?_, hs.fit h.fit, fun hlt => ?_⟩
  · obtain ⟨w, hw, hid, hspared⟩ := hs.windows w' hw' hid
    rw [hsame, hspared.standing]
    exact h.told w hw hid
  · exact hsame.trans (h.unborn (hs.next.trans_lt hlt))

/-- A change that spares the window keeps its requests paired. -/
theorem Paired.spares (h : Paired i s) (hs : Spares i s s')
    (hok : s'.failed = false → s.failed = false) (hl : s'.failed = false → Ledger s → Ledger s') :
    Paired i s' := by
  refine ⟨?_, fun hf => ?_⟩
  · obtain ⟨extra, heq, hfree⟩ := hs.requests
    rw [heq]
    exact h.justified.append_free fun r hr => allowedAfter_of_free (hfree r hr)
  · have haccount := h.account (hok hf)
    exact haccount.spares hs (hl hf haccount.ledger)

/-- Nothing was asked yet. -/
theorem paired_initial (i : Nat) : Paired i {} := by
  refine ⟨justified_nil, fun _ => ⟨ledger_initial, ?_, ?_, fun _ => rfl⟩⟩
  · exact fun w hw => absurd hw List.not_mem_nil
  · exact fun w hw => absurd hw List.not_mem_nil

/-- A window is created with a number of which nothing was said. -/
theorem paired_managerWindow (h : Paired i s) : Paired i (managerWindow s) := by
  have hrequests : (managerWindow s).requests = s.requests := by
    rcases newId_cases s with heq | heq
    · exact congrArg (fun t => t.2.requests) heq
    · exact congrArg (fun t => t.2.requests) heq
  refine ⟨hrequests ▸ h.justified, fun hf => ?_⟩
  obtain ⟨-, heq⟩ := newId_of_not_failed (s := s) hf
  have hold : s.failed = false := not_failed_of_step (failed_newId s) hf
  obtain ⟨hl, htold, hfit, hunborn⟩ := h.account hold
  have hwindows : (managerWindow s).windows = s.windows ++ [{ id := s.nextId + 1 }] := by
    simp only [managerWindow, heq]
  have hnext : (managerWindow s).nextId = s.nextId + 1 := by simp only [managerWindow, heq]
  refine ⟨ledger_managerWindow hl hf, ?_, ?_, fun hlt => ?_⟩
  · intro w hw hid
    rw [hrequests]
    rcases List.mem_append.mp (hwindows ▸ hw) with hw | hw
    · exact htold w hw hid
    · rw [List.mem_singleton.mp hw] at hid ⊢
      exact hunborn (hid ▸ Nat.lt_succ_self _)
  · intro w hw hid hc
    rcases List.mem_append.mp (hwindows ▸ hw) with hw | hw
    · exact hfit w hw hid hc
    · rw [List.mem_singleton.mp hw] at hc
      contradiction
  · rw [hnext] at hlt
    exact hrequests ▸ hunborn (Nat.lt_of_succ_lt hlt)

/-- A callback outside a transaction keeps the pairing. -/
theorem paired_listen (h : Paired i s) (cb : Callback) : Paired i (listen cb s) := by
  by_cases hcb : cb = .managerWindow
  · exact hcb ▸ paired_managerWindow h
  · exact h.spares (spares_listen s hcb) (not_failed_of_step (failed_listen cb s))
      fun hf hl => ledger_listen hl hf

/-- The end of a transaction. -/
theorem ledger_finish {g : State → State} (hg : ∀ s, Quiet True s (g s)) (hl : Ledger s) :
    Ledger (sendStop { (if s.failed then s else g s) with phase := .idle }) := by
  have hidle : Ledger { s with phase := .idle } := { hl with }
  exact hidle.quiet (quiet_finish hg s)

/-- A render transaction keeps the ledger. -/
theorem ledger_runRender {sys : System} (hl : Ledger sys.bridge) :
    Ledger (runRender sys).bridge := by
  have hidle : Ledger { sys.bridge with phase := .idle } := { hl with }
  exact hidle.quiet (quiet_runRender sys)

/-- A render callback keeps the pairing. -/
theorem paired_managerRenderStart {sys : System} (h : Paired i sys.bridge) :
    Paired i (managerRenderStart sys).bridge := by
  have hspares := spares_managerRenderStart (i := i) sys
  rcases managerRenderStart_cases sys with ⟨-, heq⟩ | ⟨message, -, heq⟩ | ⟨hf, heq⟩ <;>
    rw [heq] at hspares ⊢
  · exact h
  · exact h.spares hspares nofun nofun
  · exact h.spares hspares (fun _ => hf) fun _ hl => ledger_runRender hl

end Paired

/-! ## The hand over -/

section HandOver

variable {i : Nat} {sys : System}

/-- Draining the queue and publishing motion. -/
theorem quiet_drained (sys : System) : ∃ s, Quiet True sys.bridge s
    ∧ Quiet True { s with input := [] } (publishDrag (drainInput sys)).bridge := by
  refine ⟨(sys.bridge.input.foldl drainEvent sys).bridge, ?_, ?_⟩
  · exact drainEvents_induction _ (Quiet.refl _) fun id s h =>
      h.trans (quiet_modifySeat id seatStep_override s)
  · change Quiet True (drainInput sys).bridge _
    rcases publishDrag_cases (drainInput sys) with h | ⟨id, events, -, h⟩ <;> rw [h]
    · exact .refl _
    · exact quiet_modifySeat id seatStep_settle _

/-- The events are handed over in a manage phase. -/
theorem phase_handedOver (sys : System) : (handedOver sys).bridge.phase = .manage := by
  obtain ⟨s, hdrained, hdragged⟩ := quiet_drained (beforeQueue sys)
  exact hdragged.phase.trans (hdrained.phase.trans (stage_beforeQueue sys).phase)

/-- The stages before the hand over keep the ledger. -/
theorem ledger_handedOver (hl : Ledger sys.bridge) (hf : (handedOver sys).bridge.failed = false) :
    Ledger (handedOver sys).bridge := by
  have hstage := stage_beforeQueue sys
  obtain ⟨s, hdrained, hdragged⟩ := quiet_drained (beforeQueue sys)
  have hfailed : (beforeQueue sys).bridge.failed = false :=
    not_failed_of_step (fun h => hdragged.failed (hdrained.failed h)) hf
  have hbefore : Ledger (beforeQueue sys).bridge := hstage.ledger hfailed { hl with }
  have hempty : Ledger { s with input := [] } := { hbefore.quiet hdrained with }
  exact hempty.quiet hdragged

/-- Every window that is handed over has its node. -/
theorem node_handedOver
    (hfit : ∀ w ∈ sys.bridge.windows, w.id = i → w.configured = true → w.node = true)
    (hf : (handedOver sys).bridge.failed = false) :
    ∀ w ∈ (handedOver sys).bridge.windows, w.id = i → w.node = true := by
  let locked := publishLock (sys.onBridge fun s => { s with phase := .manage })
  obtain ⟨s, hdrained, hdragged⟩ := quiet_drained (beforeQueue sys)
  have hlifecycle : (updateLifecycle locked).bridge.failed = false := by
    have hbefore := not_failed_of_step (fun h => hdragged.failed (hdrained.failed h)) hf
    have hcancelled := not_failed_of_step (quiet_override false
      (cancelOperation (updateLifecycle locked)).bridge).failed hbefore
    rwa [bridge_cancelOperation] at hcancelled
  obtain ⟨-, heq⟩ := updateLifecycle_eq hlifecycle
  let dropped := publishOutputs (dropWindows (dropOutputs locked))
  have hdropped := ((spares_begin sys).trans (spares_dropped locked)).fit hfit
  have hannounced : ∀ w ∈ (announceWindows dropped).bridge.windows, w.id = i → w.node = true := by
    refine List.forall_mem_map.mpr fun w hw hid => ?_
    have hnode := hdropped w hw hid
    cases hc : w.configured <;> simp_all
  have hrest : Spares i (announceWindows dropped).bridge (handedOver sys).bridge := by
    have hafter := spares_afterLifecycle (i := i) (updateLifecycle locked)
    rw [heq] at hafter
    have hlast := (spares_announced (i := i) (announceWindows dropped)).trans hafter
    rwa [← heq] at hlast
  intro w' hw' hid
  obtain ⟨w, hw, hid, hspared⟩ := hrest.windows w' hw' hid
  exact hspared.node (hannounced w hw hid)

end HandOver

/-! ## Passes -/

/-- A manage sequence in which Haskell makes the calls. -/
def placeWindows (calls : List Placing) (sys : System) : System :=
  let s := sys.bridge
  if s.failed ∨ s.phase ≠ .idle ∨ s.awaitingRender ∨ !s.xkb then managerManageStart sys
  else (handedOver sys).onBridge fun s =>
    let s := { s with pointerCancelBatch := false }
    Desk.endManage (if s.failed then s else placeAll calls s)

/-- Placing the windows sends no grab. -/
theorem quiet_placeAll (calls : List Placing) (s : State) : Quiet True s (placeAll calls s) := by
  have hrun : ∀ (t : State) (c : Placing), Quiet True t (c.run t) :=
    fun t c => (quiet_xwSetMode _ _ _ _ t).trans (quiet_xwSetWindow _ _ _ _ _ _ _ _)
  exact Quiet.foldl hrun calls s

/-- A pass over other windows spares this one. -/
theorem Elsewhere.spares {i : Nat} {s s' : State} (h : Elsewhere i s s') (hn : s'.nextId = s.nextId) :
    Spares i s s' :=
  ⟨fun w hw hid => ⟨w, h.records w hw hid, hid, Spared.refl w⟩, h.requests, hn.ge⟩

/-- Setters of a window that is gone do nothing. -/
theorem run_of_gone {c : Placing} {s : State} (hs : Placeable s) (h : findWindow c.id s = none) :
    c.run s = s := by
  have hmode : xwSetMode c.id c.outputId c.floating c.fullscreen s = s := by
    rw [xwSetMode, requireManage_eq hs, h]
  rw [Placing.run, hmode, xwSetWindow, requireManage_eq hs, h]

section Pass

variable {i : Nat}

/-- The calls, seen from window `i`: they leave it alone, or set it once. -/
theorem placeAll_cases {calls : List Placing} (hcalls : (calls.map Placing.id).count i ≤ 1)
    {s : State} (hs : Placeable s) (hnode : ∀ w ∈ s.windows, w.id = i → w.node = true) :
    Spares i s (placeAll calls s) ∨ ∃ w w', findWindow i s = some w
      ∧ PassStep i w w' s (placeAll calls s) := by
  have hnext : (placeAll calls s).nextId = s.nextId := (quiet_placeAll calls s).nextId
  cases hw : findWindow i s with
  | none =>
      refine Or.inl (Elsewhere.spares ?_ hnext)
      have hgone : Elsewhere i s (placeAll calls s) ∧ Placeable (placeAll calls s) := by
        refine List.foldlRecOn (motive := fun t => Elsewhere i s t ∧ Placeable t) calls _
          ⟨.refl i s, hs⟩ fun t ⟨ht, hplaceable⟩ c _ => ?_
        by_cases hid : c.id = i
        · rw [run_of_gone hplaceable (hid ▸ ht.window.trans hw)]
          exact ⟨ht, hplaceable⟩
        · have hother := Placing.elsewhere hid t
          exact ⟨ht.trans hother, hother.placeable hplaceable⟩
      exact hgone.1
  | some w =>
      obtain ⟨hmem, hid, -⟩ := findWindow_some hw
      rcases Nat.le_one_iff_eq_zero_or_eq_one.mp hcalls with hzero | hone
      · exact Or.inl ((elsewhere_calls (List.count_eq_zero.mp hzero) s).spares hnext)
      · obtain ⟨w', hstep⟩ := passStep hs hw (hnode w hmem hid) hone
        exact Or.inr ⟨w, w', rfl, hstep⟩

/-- A pass over the window keeps the pairing. -/
theorem paired_passStep {s s' : State} {w w' : Window} (h : PassStep i w w' s s') (hp : Paired i s)
    (hf : s.failed = false) (hw : findWindow i s = some w) (hnode : w.node = true)
    (hl : Ledger s') : Paired i s' := by
  obtain ⟨hmem, hid, -⟩ := findWindow_some hw
  obtain ⟨hmem', hid', -⟩ := findWindow_some h.window
  have hunique : ∀ v ∈ s'.windows, v.id = i → v = w' :=
    fun v hv hvid => eq_of_numbered hl.windows hv hmem' (hvid.trans hid'.symm)
  obtain ⟨hjustified, htold⟩ := h.told hp.justified ((hp.account hf).told w hmem hid)
  refine ⟨hjustified, fun _ => ⟨hl, fun v hv hvid => ?_, fun v hv hvid _ => ?_, fun hlt => ?_⟩⟩
  · rw [hunique v hv hvid, htold]
  · rw [hunique v hv hvid, h.node, hnode]
  · have hbounded := hl.windows.bounded i (hid' ▸ List.mem_map_of_mem hmem')
    omega

/-- In a manage phase the ledger lets the windows be placed. -/
theorem placeable_of_ledger {s : State} (hl : Ledger s) (hphase : s.phase = .manage)
    (hf : s.failed = false) : Placeable s :=
  ⟨hphase, hf, fun _ hmem =>
    Nat.one_le_iff_ne_zero.mp (hl.outputs.positive _ (List.mem_map_of_mem hmem))⟩

/-- Window `i` is left alone, or set once in between. -/
def Passed (i : Nat) (s s' : State) : Prop :=
  Spares i s s' ∨ ∃ before after w w', Spares i s before ∧ findWindow i before = some w
    ∧ PassStep i w w' before after ∧ Ledger after ∧ Spares i after s' ∧ s'.windows = after.windows

/-- A change that spares the window may precede a pass. -/
theorem Passed.after {s s' s'' : State} (hs : Spares i s s') (h : Passed i s' s'') :
    Passed i s s'' := by
  rcases h with h | ⟨before, after, w, w', hbefore, h⟩
  · exact Or.inl (hs.trans h)
  · exact Or.inr ⟨before, after, w, w', hs.trans hbefore, h⟩

/-- The calls and the end of the sequence. -/
theorem passed_calls {calls : List Placing} (hcalls : (calls.map Placing.id).count i ≤ 1) {s : State}
    (hp : Paired i s) (hphase : s.phase = .manage)
    (hnode : s.failed = false → ∀ w ∈ s.windows, w.id = i → w.node = true) :
    Paired i (Desk.endManage (if s.failed then s else placeAll calls s))
      ∧ Passed i s (Desk.endManage (if s.failed then s else placeAll calls s)) := by
  have hend : ∀ t : State, Paired i t → Paired i (Desk.endManage t) := fun t ht =>
    ht.spares (spares_endManage t)
      (not_failed_of_step (quiet_finish quiet_manageFinish t).failed)
      fun _ hl => ledger_finish quiet_manageFinish hl
  cases hf : s.failed with
  | true => exact ⟨hend s hp, Or.inl (spares_endManage s)⟩
  | false =>
      have hl : Ledger s := (hp.account hf).ledger
      have hplaced : Ledger (placeAll calls s) := hl.quiet (quiet_placeAll calls s)
      rcases placeAll_cases hcalls (placeable_of_ledger hl hphase hf) (hnode hf) with
        hspares | ⟨w, w', hw, hstep⟩
      · exact ⟨hend _ (hp.spares hspares (fun _ => hf) fun _ _ => hplaced),
          Or.inl (hspares.trans (spares_endManage _))⟩
      · obtain ⟨hmem, hid, -⟩ := findWindow_some hw
        exact ⟨hend _ (paired_passStep hstep hp hf hw (hnode hf w hmem hid) hplaced),
          Or.inr ⟨s, _, w, w', .refl i s, hw, hstep, hplaced, spares_endManage _,
            windows_endManage _⟩⟩

/-- A sequence that may not start. -/
theorem passed_refused {sys : System} (hp : Paired i sys.bridge) (h : sys.bridge.failed
    ∨ sys.bridge.phase ≠ .idle ∨ sys.bridge.awaitingRender ∨ !sys.bridge.xkb) :
    Paired i (managerManageStart sys).bridge ∧ Passed i sys.bridge (managerManageStart sys).bridge := by
  have hfail : ∀ message, Paired i (sys.onBridge (fail message)).bridge
      ∧ Passed i sys.bridge (sys.onBridge (fail message)).bridge := fun message =>
    ⟨hp.spares (.fields rfl rfl rfl) nofun nofun, Or.inl (.fields rfl rfl rfl)⟩
  unfold managerManageStart
  simp only
  split
  · exact ⟨hp, Or.inl (.refl i _)⟩
  · split
    · exact hfail _
    · split
      · exact hfail _
      · exact absurd h (by simp_all)

/-- A pass, seen from window `i`. -/
theorem passed_placeWindows {calls : List Placing} (hcalls : (calls.map Placing.id).count i ≤ 1)
    {sys : System} (hp : Paired i sys.bridge) :
    Paired i (placeWindows calls sys).bridge
      ∧ Passed i sys.bridge (placeWindows calls sys).bridge := by
  unfold placeWindows
  simp only
  split
  · next hguard => exact passed_refused hp hguard
  · next hguard =>
    have hok : sys.bridge.failed = false := Bool.eq_false_iff.mpr fun hf => hguard (Or.inl hf)
    have hhanded := spares_handedOver (i := i) sys
    have hphase := phase_handedOver sys
    have hnode := node_handedOver (hp.account hok).fit
    have hledger := ledger_handedOver (hp.account hok).ledger
    generalize handedOver sys = handed at hhanded hphase hnode hledger ⊢
    have hcleared : Spares i sys.bridge { handed.bridge with pointerCancelBatch := false } :=
      hhanded.trans (.fields rfl rfl rfl)
    have hready : Paired i { handed.bridge with pointerCancelBatch := false } :=
      hp.spares hcleared (fun _ => hok) fun hf _ => { hledger hf with }
    obtain ⟨hpaired, hpassed⟩ := passed_calls hcalls hready hphase hnode
    exact ⟨hpaired, hpassed.after hcleared⟩

end Pass

/-! ## The obligation -/

/-- Window `i` has left fullscreen and has not been shown since. -/
structure Owing (i : Nat) (s : State) : Prop where
  known : 1 ≤ i ∧ i ≤ s.nextId
  owed : ∀ w ∈ s.windows, w.id = i → w.closed = false →
    w.standing.owed = true ∧ (w.visible = true → w.standing.fullscreen = true)

section Obligation

variable {i : Nat} {s s' : State}

/-- A change that spares the window keeps what is owed. -/
theorem Owing.spares (h : Owing i s) (hs : Spares i s s') : Owing i s' := by
  refine ⟨⟨h.known.1, h.known.2.trans hs.next⟩, fun w' hw' hid hopen => ?_⟩
  obtain ⟨w, hw, hid, hspared⟩ := hs.windows w' hw' hid
  rw [hspared.standing, hspared.visible]
  exact h.owed w hw hid (Bool.eq_false_iff.mpr fun hc => absurd ((hspared.closed hc).symm.trans hopen) nofun)

/-- No id is given out twice. -/
theorem spares_managerWindow (h : 1 ≤ i ∧ i ≤ s.nextId) : Spares i s (managerWindow s) := by
  have hnew : i ≠ (newId s).1 := by
    rcases newId_cases s with heq | heq <;> rw [heq] <;> simp only <;> omega
  refine (spares_newId s).trans ⟨fun w hw hid => ?_, ⟨[], (List.append_nil _).symm, nofun⟩, le_rfl⟩
  rcases List.mem_append.mp hw with hw | hw
  · exact ⟨w, hw, hid, Spared.refl w⟩
  · rw [List.mem_singleton.mp hw] at hid
    exact absurd hid.symm hnew

/-- A callback outside a transaction keeps what is owed. -/
theorem Owing.listen (h : Owing i s) (cb : Callback) : Owing i (listen cb s) := by
  by_cases hcb : cb = .managerWindow
  · exact hcb ▸ h.spares (spares_managerWindow h.known)
  · exact h.spares (spares_listen s hcb)

/-- A window due for its geometry gets it when it is shown, and is owed it otherwise. -/
theorem due_pass (h : Passed i s s') (hdue : Owing i s ∨ .exitFullscreen i ∈ newRequests s s') :
    Restores i (newRequests s s') ∧ Shown i s' ∨ Owing i s' := by
  have hfree : ∀ {extra : List Request}, (∀ r ∈ extra, r.concerns i = false) →
      .exitFullscreen i ∉ extra := fun hextra hmem => by simpa [Request.concerns] using hextra _ hmem
  rcases h with hspares | ⟨before, after, w, w', hbefore, hw, hstep, hl, hafter, hwindows⟩
  · obtain ⟨extra, heq, hextra⟩ := hspares.requests
    rw [newRequests, heq, List.drop_left] at hdue
    exact Or.inr ((hdue.resolve_right (hfree hextra)).spares hspares)
  · obtain ⟨early, hearly, hearlyFree⟩ := hbefore.requests
    obtain ⟨late, hlate, hlateFree⟩ := hafter.requests
    obtain ⟨sent, hsent⟩ : ∃ sent, after.requests = before.requests ++ sent := by
      obtain ⟨pre, mode, show', post, middle, heq, -⟩ := hstep.steps
      exact ⟨_, heq⟩
    have hnew : newRequests s s' = early ++ sent ++ late := by
      rw [newRequests, hlate, hsent, hearly, List.append_assoc, List.append_assoc, List.drop_left,
        List.append_assoc]
    obtain ⟨hmem, hid, hopen⟩ := findWindow_some hw
    obtain ⟨hmem', hid', -⟩ := findWindow_some hstep.window
    have hdue' : w.standing.owed = true ∨ .exitFullscreen i ∈ sent := by
      refine hdue.imp (fun h => ((h.spares hbefore).owed w hmem hid hopen).1) fun hexit => ?_
      rw [hnew] at hexit
      simpa [hfree hearlyFree, hfree hlateFree] using hexit
    rcases hstep.restores_or_owed hsent hdue' with ⟨hrestores, hvisible, hleft⟩ | howed
    · refine Or.inl ⟨hrestores.mono ?_, w', ?_, hvisible, by simpa [Window.standing] using hleft⟩
      · rw [hnew]
        intro r hr
        simp [hr]
      · rw [findWindow, hwindows]
        exact hstep.window
    · refine Or.inr ⟨⟨?_, ?_⟩, fun v hv hvid _ => ?_⟩
      · exact hl.windows.positive i (hid' ▸ List.mem_map_of_mem hmem')
      · exact (hl.windows.bounded i (hid' ▸ List.mem_map_of_mem hmem')).trans hafter.next
      · obtain rfl := eq_of_numbered hl.windows (hwindows ▸ hv) hmem' (hvid.trans hid'.symm)
        exact howed

/-- A window that is owed its geometry is not shown. -/
theorem Owing.not_shown (h : Owing i s) : ¬Shown i s := by
  rintro ⟨w, hw, hvisible, hleft⟩
  obtain ⟨hmem, hid, hopen⟩ := findWindow_some hw
  have hfull := (h.owed w hmem hid hopen).2 hvisible
  simp [Window.standing, hleft] at hfull

end Obligation

/-! ## Runs -/

/-- What happens to the bridge: a callback that only the bridge hears, a render sequence, or
a pass. -/
inductive Turn where
  | listen (cb : Callback)
  | render
  | pass (calls : List Placing)

def Turn.run : Turn → System → System
  | .listen cb, sys => sys.onBridge (XmonadWayland.listen cb)
  | .render, sys => managerRenderStart sys
  | .pass calls, sys => placeWindows calls sys

def runTurns (turns : List Turn) (sys : System) : System := turns.foldl (fun sys t => t.run sys) sys

/-- The requests sent in a turn after others. -/
def sentIn (start : System) (turns : List Turn) (t : Turn) : List Request :=
  newRequests (runTurns turns start).bridge (runTurns (turns ++ [t]) start).bridge

/-- Every pass places window `i` at most once. -/
def Orderly (i : Nat) (turns : List Turn) : Prop :=
  ∀ calls, .pass calls ∈ turns → (calls.map Placing.id).count i ≤ 1

section Runs

variable {i : Nat}

/-- Turns run one list after the other. -/
theorem runTurns_append (turns turns' : List Turn) (start : System) :
    runTurns (turns ++ turns') start = runTurns turns' (runTurns turns start) := List.foldl_append

/-- The last turn runs on what the others left. -/
theorem runTurns_concat (turns : List Turn) (t : Turn) (start : System) :
    runTurns (turns ++ [t]) start = t.run (runTurns turns start) := runTurns_append turns [t] start

/-- An orderly turn keeps the pairing. -/
theorem Paired.turn {sys : System} (h : Paired i sys.bridge) {t : Turn} (ht : Orderly i [t]) :
    Paired i (t.run sys).bridge := by
  cases t with
  | listen cb => exact paired_listen h cb
  | render => exact paired_managerRenderStart h
  | pass calls => exact (passed_placeWindows (ht calls (List.mem_singleton_self _)) h).1

/-- Every run of orderly turns keeps the pairing. -/
theorem paired_runTurns {start : System} (h : Paired i start.bridge) {turns : List Turn}
    (hturns : Orderly i turns) : Paired i (runTurns turns start).bridge := by
  refine List.foldlRecOn (motive := fun sys : System => Paired i sys.bridge) turns _ h
    fun sys hsys t ht => hsys.turn fun calls hcalls => ?_
  exact hturns calls (List.mem_singleton.mp hcalls ▸ ht)

/-- The obligation stays until the window is shown. -/
theorem owing_runTurns {start : System} (hp : Paired i start.bridge) (h : Owing i start.bridge)
    {turns : List Turn} (hturns : Orderly i turns)
    (hhidden : ∀ earlier calls later, turns = earlier ++ .pass calls :: later →
      ¬Shown i (runTurns (earlier ++ [.pass calls]) start).bridge) :
    Owing i (runTurns turns start).bridge := by
  induction turns using List.reverseRecOn with
  | nil => exact h
  | append_singleton turns t ih =>
      have hbefore : Orderly i turns := fun calls hcalls => hturns calls (List.mem_append_left _ hcalls)
      have howing := ih hbefore fun earlier calls later heq =>
        hhidden earlier calls (later ++ [t]) (by simp [heq])
      have hpaired := paired_runTurns hp hbefore
      rw [runTurns_concat]
      cases t with
      | listen cb => exact howing.listen cb
      | render => exact howing.spares (spares_managerRenderStart _)
      | pass calls =>
          have hcalls := hturns calls (List.mem_append_right _ (List.mem_singleton_self _))
          have hpassed := (passed_placeWindows hcalls hpaired).2
          refine (due_pass hpassed (Or.inl howing)).resolve_left fun ⟨_, hshown⟩ => ?_
          refine hhidden turns calls [] rfl ?_
          rwa [runTurns_concat]

/-- A pass that shows a window that is owed its geometry restores it. -/
theorem restores_of_shown {start : System} (hp : Paired i start.bridge) (h : Owing i start.bridge)
    {calls : List Placing} (hcalls : (calls.map Placing.id).count i ≤ 1)
    (hshown : Shown i ((Turn.pass calls).run start).bridge) :
    Restores i (newRequests start.bridge ((Turn.pass calls).run start).bridge) :=
  ((due_pass (passed_placeWindows hcalls hp).2 (Or.inl h)).resolve_right
    fun howing => howing.not_shown hshown).1

/-- What follows a pass in which the window leaves fullscreen. -/
theorem restored_after_exit {start : System} (hp : Paired i start.bridge) {calls : List Placing}
    {rest : List Turn} (hturns : Orderly i (.pass calls :: rest))
    (hexit : .exitFullscreen i ∈ newRequests start.bridge ((Turn.pass calls).run start).bridge) :
    (Shown i ((Turn.pass calls).run start).bridge →
      Restores i (newRequests start.bridge ((Turn.pass calls).run start).bridge))
    ∧ (¬Shown i ((Turn.pass calls).run start).bridge →
      ∀ between calls' after, rest = between ++ .pass calls' :: after →
        (∀ earlier c later, between = earlier ++ .pass c :: later →
          ¬Shown i (runTurns (earlier ++ [.pass c]) ((Turn.pass calls).run start)).bridge) →
        Shown i (runTurns (between ++ [.pass calls']) ((Turn.pass calls).run start)).bridge →
        Restores i (sentIn ((Turn.pass calls).run start) between (.pass calls'))) := by
  obtain ⟨hleft, hpassed⟩ := passed_placeWindows (hturns calls List.mem_cons_self) hp
  have hdue := due_pass hpassed (Or.inr hexit)
  refine ⟨fun hshown => (hdue.resolve_right fun howing => howing.not_shown hshown).1, ?_⟩
  rintro hhidden between calls' after rfl hbetween hshown
  have howing := hdue.resolve_left fun h => hhidden h.2
  have horderly : Orderly i between :=
    fun c hc => hturns c (List.mem_cons_of_mem _ (List.mem_append_left _ hc))
  have hlast : (calls'.map Placing.id).count i ≤ 1 := hturns calls' (by simp)
  rw [runTurns_concat] at hshown
  rw [sentIn, runTurns_concat]
  exact restores_of_shown (paired_runTurns hleft horderly)
    (owing_runTurns hleft howing horderly hbetween) hlast hshown

end Runs

/-- **Fullscreen pairing**: whatever the calls, the outputs and the other callbacks are, the window
leaves fullscreen and is told so only when the last request about it was to enter, no dimensions
are proposed while it is fullscreen, and after leaving it the first pass that shows the window
restores both its dimensions and its position. -/
theorem fullscreen_paired (cfg : Config) (loads : List (Option Config))
    (decode : List UInt8 → String) {i : Nat} {turns : List Turn} (hturns : Orderly i turns) :
    let start := initialSystem cfg loads decode
    Justified (allowedAfter i) (runTurns turns start).bridge.requests
      ∧ ∀ before calls rest, turns = before ++ .pass calls :: rest →
        .exitFullscreen i ∈ sentIn start before (.pass calls) →
        let left := runTurns (before ++ [.pass calls]) start
        (Shown i left.bridge → Restores i (sentIn start before (.pass calls)))
        ∧ (¬Shown i left.bridge → ∀ between calls' after, rest = between ++ .pass calls' :: after →
          (∀ earlier c later, between = earlier ++ .pass c :: later →
            ¬Shown i (runTurns (earlier ++ [.pass c]) left).bridge) →
          Shown i (runTurns (between ++ [.pass calls']) left).bridge →
          Restores i (sentIn left between (.pass calls'))) := by
  intro start
  have hstart : Paired i start.bridge := paired_initial i
  clear_value start
  refine ⟨(paired_runTurns hstart hturns).justified, ?_⟩
  rintro before calls rest rfl hexit
  rw [sentIn, runTurns_concat] at hexit ⊢
  have hbefore : Orderly i before := fun c hc => hturns c (List.mem_append_left _ hc)
  exact restored_after_exit (paired_runTurns hstart hbefore)
    (fun c hc => hturns c (List.mem_append_right _ hc)) hexit

/-- Window 1 on the whole of output 2. -/
def placingOf (fullscreen visible : Bool) : Placing :=
  ⟨1, 2, false, fullscreen, visible, 0, 0, 800, 600, visible⟩

/-- A fullscreen window that leaves it on a hidden workspace. -/
def hiddenTurns : List Turn :=
  [.listen .registryXkb, .listen .managerWindow, .listen .managerOutput,
    .listen (.outputPosition 2 0 0), .listen (.outputDimensions 2 800 600),
    .pass [placingOf true true], .render]

/-- It leaves hidden, and the pass that shows it again restores it. -/
theorem fullscreen_paired_hidden :
    let left := runTurns (hiddenTurns ++ [.pass [placingOf false false]])
      (initialSystem defaultConfig [] fun _ => "")
    Restores 1 (sentIn left [.render] (.pass [placingOf false true])) := by
  intro left
  have horderly : Orderly 1 (hiddenTurns ++ .pass [placingOf false false]
      :: [.render, .pass [placingOf false true]]) := by
    intro calls hcalls
    simp only [hiddenTurns, List.mem_append, List.mem_cons, List.not_mem_nil, or_false, reduceCtorEq,
      false_or, Turn.pass.injEq] at hcalls
    rcases hcalls with rfl | rfl | rfl <;> decide
  obtain ⟨-, hlater⟩ := (fullscreen_paired defaultConfig [] (fun _ => "") horderly).2 hiddenTurns
    [placingOf false false] [.render, .pass [placingOf false true]] rfl (by decide +kernel)
  have hhidden : (findWindow 1 left.bridge).map Window.visible = some false := rfl
  refine hlater ?_ [.render] [placingOf false true] [] rfl ?_ ⟨_, rfl, rfl, rfl⟩
  · rintro ⟨w, hw, hvisible, -⟩
    rw [hw, Option.map_some, hvisible] at hhidden
    contradiction
  · rintro (_ | ⟨t, earlier⟩) c later heq <;> simp at heq

end XmonadWayland.Bridge
