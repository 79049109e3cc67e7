import XmonadWayland.Bridge.Grab

/-!
# XmonadWayland.Bridge.Stage

The stages of the two transactions that neither drain the queue nor hand the operation
over: they publish events that start no operation and rewrite or drop records.  With
them the callbacks between the transactions, which only touch the bridge.
-/

namespace XmonadWayland.Bridge

/-! ## The Haskell side -/

/-- Events that start no operation: the policy moves on, its operation stays or ends. -/
structure Follows (rt rt' : Runtime) : Prop where
  config : rt'.runtimeConfig = rt.runtimeConfig
  reachable : Reachable rt.runtimeConfig rt.runtimePolicy →
    Reachable rt'.runtimeConfig rt'.runtimePolicy
  operation : Reachable rt.runtimeConfig rt.runtimePolicy →
    rt'.runtimePolicy.pointerOperation = rt.runtimePolicy.pointerOperation
      ∨ rt'.runtimePolicy.pointerOperation = none

theorem Follows.refl (rt : Runtime) : Follows rt rt := ⟨rfl, fun h => h, fun _ => Or.inl rfl⟩

theorem Follows.trans {rt rt' rt'' : Runtime} (h : Follows rt rt') (h' : Follows rt' rt'') :
    Follows rt rt'' where
  config := h'.config.trans h.config
  reachable hr := h'.reachable (h.reachable hr)
  operation hr := (h'.operation (h.reachable hr)).elim (fun he => he ▸ h.operation hr) Or.inr

/-- Only event 21 is decoded as the start of an operation. -/
theorem decode_pointerStarted {rt : Runtime} {d : Delivered} {sid : SeatId} {wid : WindowId}
    {edges : Nat} {x y : Int} (h : rt.decode d = some (.pointerStarted sid wid edges x y)) :
    ∃ a b c e, d = .event 21 wid a b c e ∧ sid = word32 a := by
  rcases decode_cases h with ⟨action, heq⟩ | ⟨kind, ident, a, b, c, e, rfl, hev⟩
    | ⟨ident, text, heq | heq⟩
  · contradiction
  · obtain ⟨rfl, hsid, rfl⟩ := decodeEvent_pointerStarted hev
    exact ⟨a, b, c, e, rfl, hsid⟩
  · contradiction
  · contradiction

/-- A delivered event keeps the policy reachable. -/
theorem reachable_deliver {rt : Runtime} (h : Reachable rt.runtimeConfig rt.runtimePolicy)
    (d : Delivered) :
    Reachable (rt.deliver d).runtimeConfig (rt.deliver d).runtimePolicy := by
  obtain ⟨-, hconfig, ⟨-, hp⟩ | ⟨ev, -, hp⟩⟩ := deliver_cases rt d <;> rw [hconfig, hp]
  · exact h
  · exact h.event ev

/-- The policy follows every event but the start of an operation. -/
theorem follows_deliver {d : Delivered} (hd : d.kind ≠ 21) (rt : Runtime) :
    Follows rt (rt.deliver d) := by
  obtain ⟨-, hconfig, hpolicy⟩ := deliver_cases rt d
  refine ⟨hconfig, fun h => reachable_deliver h d, fun h => ?_⟩
  rcases hpolicy with ⟨-, hp⟩ | ⟨ev, hev, hp⟩ <;> rw [hp]
  · exact Or.inl rfl
  · refine operation_step h fun sid wid edges x y heq => ?_
    obtain ⟨a, b, c, e, rfl, -⟩ := decode_pointerStarted (heq ▸ hev)
    exact hd rfl

/-- The policy follows a list of such events. -/
theorem follows_deliverAll {ds : List Delivered} (hds : ∀ d ∈ ds, d.kind ≠ 21) (rt : Runtime) :
    Follows rt (ds.foldl Runtime.deliver rt) := by
  induction ds generalizing rt with
  | nil => exact Follows.refl rt
  | cons d ds ih =>
      exact (follows_deliver (hds d List.mem_cons_self) rt).trans
        (ih (fun d' hd' => hds d' (List.mem_cons_of_mem d hd')) (rt.deliver d))

/-! ## Stages -/

/-- What the stages of a transaction other than the queue and the hand over do. -/
structure Stage (sys sys' : System) : Prop where
  tame : Tame sys.bridge sys'.bridge
  phase : sys'.bridge.phase = sys.bridge.phase
  failed : sys.bridge.failed = true → sys'.bridge.failed = true
  ledger : sys'.bridge.failed = false → Ledger sys.bridge → Ledger sys'.bridge
  follows : Follows sys.runtime sys'.runtime

/-- What did not fail after a step had not failed before it. -/
theorem not_failed_of_step {s s' : State} (h : s.failed = true → s'.failed = true)
    (h' : s'.failed = false) : s.failed = false := by
  rw [Bool.eq_false_iff] at h' ⊢
  exact fun hs => h' (h hs)

namespace Stage

variable {sys sys' sys'' : System}

theorem refl (sys : System) : Stage sys sys :=
  ⟨Tame.refl _, rfl, fun h => h, fun _ h => h, Follows.refl _⟩

theorem trans (h : Stage sys sys') (h' : Stage sys' sys'') : Stage sys sys'' where
  tame := h.tame.trans h'.tame
  phase := h'.phase.trans h.phase
  failed hf := h'.failed (h.failed hf)
  ledger hf hl := h'.ledger hf (h.ledger (not_failed_of_step h'.failed hf) hl)
  follows := h.follows.trans h'.follows

/-- A quiet change of the bridge is a stage. -/
theorem onBridge {still : Prop} {f : State → State} (h : Quiet still sys.bridge (f sys.bridge)) :
    Stage sys (sys.onBridge f) :=
  ⟨Tame.of_quiet h, h.phase, h.failed, fun _ hl => hl.quiet h, Follows.refl _⟩

theorem deliverAll (ds : List Delivered) (hds : ∀ d ∈ ds, d.kind ≠ 21) (sys : System) :
    Stage sys (sys.deliverAll ds) :=
  { refl sys with follows := follows_deliverAll hds sys.runtime }

theorem deliver {d : Delivered} (hd : d.kind ≠ 21) (sys : System) : Stage sys (sys.deliver d) :=
  { refl sys with follows := follows_deliver hd sys.runtime }

/-- Events of a list of records, which are then marked or dropped. -/
theorem publish {ds : List Delivered} {f : State → State} (hds : ∀ d ∈ ds, d.kind ≠ 21)
    (ht : Tame sys.bridge (f sys.bridge)) (hphase : (f sys.bridge).phase = sys.bridge.phase)
    (hfailed : (f sys.bridge).failed = sys.bridge.failed)
    (hl : Ledger sys.bridge → Ledger (f sys.bridge)) :
    Stage sys ((sys.deliverAll ds).onBridge f) :=
  ⟨ht, hphase, fun h => hfailed ▸ h, fun _ => hl, follows_deliverAll hds sys.runtime⟩

end Stage

/-- Dropping outputs is a stage. -/
theorem stage_dropOutputs (sys : System) : Stage sys (dropOutputs sys) := by
  unfold dropOutputs
  refine Stage.publish ?_ ?_ rfl rfl ?_
  · exact List.forall_mem_map.mpr fun _ _ => by simp [Delivered.kind]
  · refine Tame.of_records ⟨_, ?_, rfl⟩ rfl rfl (fun seat h => ⟨seat, h, rfl, fun h => h⟩)
      (fun w h => ⟨w, h, rfl, fun h => h⟩) (fun _ h => h) rfl
    exact List.forall_mem_map.mpr fun _ _ => rfl
  · exact fun hl => ledger_dropOutputs hl

/-- Dropping windows is a stage. -/
theorem stage_dropWindows (sys : System) : Stage sys (dropWindows sys) := by
  unfold dropWindows
  refine Stage.publish ?_ ?_ rfl rfl ?_
  · exact List.forall_mem_map.mpr fun _ _ => by simp [Delivered.kind]
  · refine Tame.of_records ⟨_, ?_, rfl⟩ rfl rfl (fun seat h => ⟨seat, h, rfl, fun h => h⟩)
      (fun w h => ⟨w, List.mem_of_mem_filter h, rfl, fun h => h⟩) (fun _ h => h) rfl
    exact List.forall_mem_map.mpr fun _ _ => rfl
  · exact fun hl => ledger_dropWindows hl

/-- An output is announced by the events 1 and 14. -/
theorem kind_outputEvents (output : Output) : ∀ d ∈ output.events, d.kind = 1 ∨ d.kind = 14 := by
  intro d hd
  rcases List.mem_append.mp hd with hd | hd
  · split at hd
    · exact Or.inl (List.mem_singleton.mp hd ▸ rfl)
    · contradiction
  · split at hd
    · exact Or.inr (List.mem_singleton.mp hd ▸ rfl)
    · contradiction

/-- Publishing keeps the outputs' ids and order. -/
theorem ids_publishedOutputs (outputs : List Output) :
    ((outputs.takeWhile Output.complete).map Output.published
      ++ outputs.dropWhile Output.complete).map Output.id = outputs.map Output.id := by
  rw [List.map_append, List.map_map]
  change (outputs.takeWhile Output.complete).map Output.id ++ _ = _
  rw [← List.map_append, List.takeWhile_append_dropWhile]

/-- Publishing outputs is a stage. -/
theorem stage_publishOutputs (sys : System) : Stage sys (publishOutputs sys) := by
  have hkinds : ∀ d ∈ (sys.bridge.outputs.takeWhile Output.complete).flatMap Output.events,
      d.kind ≠ 21 := by
    intro d hd
    obtain ⟨output, -, hd⟩ := List.mem_flatMap.mp hd
    rcases kind_outputEvents output d hd with h | h <;> rw [h] <;> decide
  have hpublish : Stage sys ((sys.deliverAll
      ((sys.bridge.outputs.takeWhile Output.complete).flatMap Output.events)).onBridge fun s =>
      { s with outputs := (sys.bridge.outputs.takeWhile Output.complete).map Output.published
        ++ sys.bridge.outputs.dropWhile Output.complete }) := by
    refine Stage.publish hkinds ?_ rfl rfl fun hl => ?_
    · exact Tame.of_records ⟨[], nofun, (List.append_nil _).symm⟩ rfl rfl
        (fun seat h => ⟨seat, h, rfl, fun h => h⟩) (fun w h => ⟨w, h, rfl, fun h => h⟩)
        (fun _ h => h) rfl
    · exact hl.of_sublists rfl rfl (List.Sublist.refl _)
        (ids_publishedOutputs sys.bridge.outputs ▸ List.Sublist.refl _) (List.Sublist.refl _)
        hl.primary
  unfold publishOutputs
  simp only
  split
  · exact hpublish
  · have hfail : ∀ s, Quiet True s (fail "compositor started manage before sending output geometry" s) :=
      quiet_fail (by decide)
    exact hpublish.trans (Stage.onBridge (hfail _))

/-- Rewriting every window without reviving one. -/
theorem tame_mapWindows {f : Window → Window} (s : State)
    (hf : ∀ w, (f w).id = w.id ∧ (f w).closed = w.closed) :
    Tame s { s with windows := s.windows.map f } := by
  refine Tame.of_records ⟨[], nofun, (List.append_nil _).symm⟩ rfl rfl
    (fun seat h => ⟨seat, h, rfl, fun h => h⟩) (fun w' hw' => ?_) (fun _ h => h) rfl
  obtain ⟨w, hw, rfl⟩ := List.mem_map.mp hw'
  exact ⟨w, hw, (hf w).1.symm, fun hc => (hf w).2.trans hc⟩

/-- Rewriting windows under their ids keeps the ledger. -/
theorem ledger_mapWindows {f : Window → Window} {s : State} (hl : Ledger s)
    (hf : ∀ w, (f w).id = w.id) : Ledger { s with windows := s.windows.map f } := by
  have hids : (s.windows.map f).map Window.id = s.windows.map Window.id := by
    rw [List.map_map]
    exact List.map_congr_left fun w _ => hf w
  exact hl.of_sublists rfl rfl (hids ▸ List.Sublist.refl _) (List.Sublist.refl _)
    (List.Sublist.refl _) hl.primary

/-- Configuring windows sends no grab. -/
theorem isGrab_configureRequests (windows : List Window) :
    ∀ r ∈ windows.flatMap Window.configureRequests, r.isGrab = false := by
  intro r hr
  obtain ⟨w, -, hr⟩ := List.mem_flatMap.mp hr
  unfold Window.configureRequests at hr
  split at hr
  · contradiction
  · simp only [List.mem_cons, List.not_mem_nil, or_false] at hr
    rcases hr with rfl | rfl | rfl | rfl <;> rfl

/-- Announcing windows is a stage. -/
theorem stage_announceWindows (sys : System) : Stage sys (announceWindows sys) := by
  have hsend : ∀ s, Quiet True s (send _ s) := quiet_send (isGrab_configureRequests sys.bridge.windows)
  unfold announceWindows
  refine Stage.publish ?_ ?_ rfl rfl fun hl => ?_
  · exact List.forall_mem_map.mpr fun _ _ => by simp [Delivered.kind]
  · refine (tame_mapWindows _ ?_).trans (Tame.of_quiet (hsend _))
    exact fun _ => ⟨rfl, rfl⟩
  · refine (ledger_mapWindows hl ?_).quiet (hsend _)
    exact fun _ => rfl

/-- Metadata is delivered by the events 11, 12, 26, 27 and 13. -/
theorem kind_metadataEvents (w : Window) :
    ∀ d ∈ w.metadataEvents, d.kind ∈ ([11, 12, 26, 27, 13] : List Int) := by
  intro d hd
  simp only [Window.metadataEvents, List.mem_append, or_assoc] at hd
  rcases hd with hd | hd | hd | hd <;> split at hd <;>
    simp only [List.mem_cons, List.not_mem_nil, or_false] at hd
  · simp [hd, Delivered.kind]
  · simp [hd, Delivered.kind]
  · rcases hd with rfl | rfl <;> simp [Delivered.kind]
  · simp [hd, Delivered.kind]

/-- Publishing metadata is a stage. -/
theorem stage_publishMetadata (sys : System) : Stage sys (publishMetadata sys) := by
  refine Stage.publish (fun d hd => ?_) ?_ rfl rfl ?_
  · obtain ⟨w, -, hd⟩ := List.mem_flatMap.mp hd
    intro h21
    have hmem := kind_metadataEvents w d hd
    rw [h21] at hmem
    simp at hmem
  · refine tame_mapWindows _ ?_
    exact fun _ => ⟨rfl, rfl⟩
  · refine fun hl => ledger_mapWindows hl ?_
    exact fun _ => rfl

/-- The primary left after a drop is a live seat. -/
theorem primary_dropSeats {s : State} {id : Nat}
    (h : (s.primary.filter fun id => (s.seats.filter fun seat => !seat.removed).any
        fun seat => seat.id = id).or ((s.seats.filter fun seat => !seat.removed).head?.map Seat.id)
      = some id) : ∃ seat ∈ s.seats.filter fun seat => !seat.removed, seat.id = id := by
  rcases Option.or_eq_some_iff.mp h with hkept | ⟨-, hfirst⟩
  · obtain ⟨-, hany⟩ := Option.filter_eq_some_iff.mp hkept
    obtain ⟨seat, hmem, hid⟩ := List.any_eq_true.mp hany
    exact ⟨seat, hmem, of_decide_eq_true hid⟩
  · obtain ⟨seat, hhead, hid⟩ := Option.map_eq_some_iff.mp hfirst
    exact ⟨seat, List.mem_of_head? hhead, hid⟩

/-- Dropping seats is a stage. -/
theorem stage_dropSeats (sys : System) : Stage sys (dropSeats sys) := by
  unfold dropSeats
  refine Stage.publish ?_ ?_ rfl rfl fun hl => ?_
  · exact List.forall_mem_map.mpr fun _ _ => by simp [Delivered.kind]
  · refine Tame.of_records ⟨_, ?_, rfl⟩ rfl rfl
      (fun seat h => ⟨seat, List.mem_of_mem_filter h, rfl, fun h => h⟩)
      (fun w h => ⟨w, h, rfl, fun h => h⟩) (fun _ h => h) rfl
    exact List.forall_mem_map.mpr fun _ _ => rfl
  · exact hl.of_sublists rfl rfl (List.Sublist.refl _) (List.Sublist.refl _)
      (List.filter_sublist.map _) fun id hid => primary_dropSeats hid

/-- Configuring the primary seat sends no grab. -/
theorem quiet_configurePrimary (cfg : Config) (s : State) :
    Quiet True s (configurePrimary cfg s) := by
  unfold configurePrimary
  split
  · split
    · exact Quiet.refl s
    · exact quiet_configureSeat cfg _ s
  · exact Quiet.refl s

/-- The last stages of publishing the lifecycle. -/
theorem quiet_configured (cfg : Config) (s : State) :
    Quiet True s (xwSetBindingMode s.bindingMode (configurePrimary cfg s)) :=
  (quiet_configurePrimary cfg s).trans (quiet_xwSetBindingMode _ _)

/-- The lifecycle update is a stage. -/
theorem stage_updateLifecycle (sys : System) : Stage sys (updateLifecycle sys) := by
  have hearly : Stage sys (publishOutputs (dropWindows (dropOutputs sys))) :=
    ((stage_dropOutputs sys).trans (stage_dropWindows _)).trans (stage_publishOutputs _)
  unfold updateLifecycle
  simp only
  split
  · exact hearly
  · exact (((hearly.trans (stage_announceWindows _)).trans (stage_publishMetadata _)).trans
      (stage_dropSeats _)).trans (Stage.onBridge (quiet_configured _ _))

/-- Incomplete geometry is a failure. -/
theorem failed_publishOutputs {sys : System}
    (h : (publishOutputs sys).bridge.outputs.any fun output => !output.complete) :
    (publishOutputs sys).bridge.failed = true := by
  unfold publishOutputs at h ⊢
  simp only at h ⊢
  split
  · next hrest =>
    rw [if_pos hrest] at h
    obtain ⟨output, hmem, hbad⟩ := List.any_eq_true.mp h
    change output ∈ (sys.bridge.outputs.takeWhile Output.complete).map Output.published
      ++ sys.bridge.outputs.dropWhile Output.complete at hmem
    rw [hrest, List.append_nil] at hmem
    obtain ⟨ready, hready, rfl⟩ := List.mem_map.mp hmem
    have hcomplete := List.all_eq_true.mp List.all_takeWhile ready hready
    change (!ready.complete) = true at hbad
    rw [hcomplete] at hbad
    contradiction
  · rfl

/-- A quiet change removes no seat. -/
theorem Quiet.live {s s' : State} (h : Quiet True s s')
    (hlive : ∀ seat ∈ s.seats, seat.removed = false) : ∀ seat ∈ s'.seats, seat.removed = false := by
  obtain ⟨f, hf, heq⟩ := h.seats
  rw [heq, List.forall_mem_map]
  exact fun seat hmem => ((hf seat).still trivial).1.trans (hlive seat hmem)

/-- Removed seats do not outlive a manage sequence. -/
theorem live_updateLifecycle {sys : System} (h : (updateLifecycle sys).bridge.failed = false) :
    ∀ seat ∈ (updateLifecycle sys).bridge.seats, seat.removed = false := by
  unfold updateLifecycle at h ⊢
  simp only at h ⊢
  split at h
  · next hany =>
    rw [failed_publishOutputs hany] at h
    contradiction
  · next hany =>
    rw [if_neg hany]
    refine (quiet_configured _ _).live fun seat hmem => ?_
    simpa using (List.mem_filter.mp hmem).2

/-- Marking the lock as published is quiet. -/
theorem quiet_lockPublished (s : State) : Quiet True s { s with lockChanged := false } :=
  quiet_fields rfl rfl rfl rfl rfl rfl rfl rfl rfl rfl (fun _ => rfl) rfl fun h => h

/-- Publishing the lock is a stage. -/
theorem stage_publishLock (sys : System) : Stage sys (publishLock sys) := by
  unfold publishLock
  split
  · refine (Stage.deliver ?_ sys).trans (Stage.onBridge (quiet_lockPublished _))
    change (if sys.bridge.locked then (9 : Int) else 10) ≠ 21
    split <;> decide
  · exact Stage.refl sys

/-- A cancel delivers event 24 or nothing. -/
theorem cancelOperation_cases (sys : System) :
    cancelOperation sys = sys.deliver (.event 24 sys.bridge.pointerSeat 0 0 0 0)
      ∨ cancelOperation sys = sys := ite_eq_or_eq _ _ _

/-- Cancelling the operation is a stage. -/
theorem stage_cancelOperation (sys : System) : Stage sys (cancelOperation sys) := by
  rcases cancelOperation_cases sys with h | h <;> rw [h]
  · exact Stage.deliver (by simp [Delivered.kind]) sys
  · exact Stage.refl sys

/-- Overriding the layer focus is quiet. -/
theorem quiet_override (override : Bool) (s : State) :
    Quiet True s (modifyPrimary (fun seat => { seat with layerFocusOverride := override }) s) := by
  unfold modifyPrimary
  split
  · refine quiet_modifySeat _ (fun seat => ?_) s
    exact ⟨rfl, fun h => h, fun _ => ⟨rfl, rfl⟩⟩
  · exact Quiet.refl s

/-- The stages of a manage sequence before the queue. -/
def beforeQueue (sys : System) : System :=
  (cancelOperation (updateLifecycle (publishLock (sys.onBridge fun s =>
    { s with phase := .manage })))).onBridge
      (modifyPrimary fun seat => { seat with layerFocusOverride := false })

/-- A manage transaction as its four parts. -/
theorem runManage_eq (sys : System) :
    runManage sys = finishManage (publishDrag (drainInput (beforeQueue sys))) := rfl

/-- What precedes the queue is a stage. -/
theorem stage_beforeQueue (sys : System) :
    Stage (sys.onBridge fun s => { s with phase := .manage }) (beforeQueue sys) :=
  (((stage_publishLock _).trans (stage_updateLifecycle _)).trans (stage_cancelOperation _)).trans
    (Stage.onBridge (quiet_override false _))

/-- A cancel is told to the policy only. -/
theorem bridge_cancelOperation (sys : System) : (cancelOperation sys).bridge = sys.bridge := by
  rcases cancelOperation_cases sys with h | h <;> rw [h]
  rfl

/-- Before the queue is drained no removed seat is left. -/
theorem live_beforeQueue {sys : System} (h : (beforeQueue sys).bridge.failed = false) :
    ∀ seat ∈ (beforeQueue sys).bridge.seats, seat.removed = false := by
  have hq := quiet_override false (cancelOperation (updateLifecycle (publishLock
    (sys.onBridge fun s => { s with phase := .manage })))).bridge
  have hbefore := not_failed_of_step hq.failed h
  refine hq.live ?_
  rw [bridge_cancelOperation] at hbefore ⊢
  exact live_updateLifecycle hbefore

/-! ## The queue -/

/-- The layer focus is no part of the operation. -/
theorem seatStep_override (seat : Seat) :
    SeatStep True seat { seat with layerFocusOverride := true } :=
  ⟨rfl, fun h => h, fun _ => ⟨rfl, rfl⟩⟩

/-- An explicit input leaves an on-demand layer. -/
theorem quiet_drainOverride (seat : Seat) (s : State) :
    Quiet True s ((if seat.layerFocus = .nonExclusive then
      modifySeat seat.id fun seat => { seat with layerFocusOverride := true } else id) s) := by
  split
  · exact quiet_modifySeat _ seatStep_override s
  · exact Quiet.refl _

/-- Locating an event keeps its kind and ids. -/
theorem locateInput_eq (seat : Seat) (event : Input) :
    (locateInput seat event).kind = event.kind ∧ (locateInput seat event).id = event.id
      ∧ (locateInput seat event).argument = event.argument := by
  unfold locateInput
  split
  · split <;> exact ⟨rfl, rfl, rfl⟩
  · exact ⟨rfl, rfl, rfl⟩

/-! ## Pushing and finishing -/

/-- The requests of one policy push, in order. -/
theorem applyPolicy_eq (p : Policy) (s : State) :
    applyPolicy p s = xwFocus ((focusedWindow p).getD 0) ((renderPolicy p).foldl
      (fun s placement => placementRequests placement s) (xwSetOutput ((focusedOutput p).getD 0)
        (xwSetPointerOperation (operationTriple p).1 (operationTriple p).2.1
          (operationTriple p).2.2 (xwSetBindingMode p.activeMode.fromEnum s)))) := rfl

/-- Pushing one placement is quiet. -/
theorem quiet_placementRequests (placement : Placement) (s : State) :
    Quiet True s (placementRequests placement s) :=
  (quiet_xwSetMode _ _ _ _ s).trans (quiet_xwSetWindow _ _ _ _ _ _ _ _)

/-- What a policy pushes besides the mode and the operation. -/
theorem quiet_pushed (p : Policy) (s : State) :
    Quiet True s (xwFocus ((focusedWindow p).getD 0) ((renderPolicy p).foldl
      (fun s placement => placementRequests placement s)
      (xwSetOutput ((focusedOutput p).getD 0) s))) :=
  ((quiet_xwSetOutput _ s).trans
    (Quiet.foldl (fun t placement => quiet_placementRequests placement t) _ _)).trans
    (quiet_xwFocus _ _)

/-- The end of a transaction: requests if all went well, and a pending stop. -/
theorem quiet_finish {g : State → State} (hg : ∀ s, Quiet True s (g s)) (s : State) :
    Quiet True { s with phase := .idle }
      (sendStop { (if s.failed then s else g s) with phase := .idle }) := by
  have hif : Quiet True s (if s.failed then s else g s) := by
    split
    · exact Quiet.refl s
    · exact hg s
  have hidle : Quiet True { s with phase := .idle }
      { (if s.failed then s else g s) with phase := .idle } := { hif with phase := rfl }
  exact hidle.trans (quiet_sendStop _)

/-- Answering a manage sequence is quiet. -/
theorem quiet_manageFinish (s : State) : Quiet True s
    { send [.manageFinish] s with managed := true, awaitingRender := true } := by
  have hsend : Quiet True s (send [.manageFinish] s) :=
    quiet_send (fun r hr => List.mem_singleton.mp hr ▸ rfl) s
  exact hsend.trans
    (quiet_fields rfl rfl rfl rfl rfl rfl rfl rfl rfl rfl (fun _ => rfl) rfl fun h => h)

/-! ## Render sequences -/

/-- Requests that modify window management state: the protocol allows them in a manage
sequence only. -/
def Request.manageOnly : Request → Bool
  | .opStartPointer _ => true
  | .opEnd _ => true
  | .informResizeStart _ => true
  | .informResizeEnd _ => true
  | .focusWindow _ _ => true
  | .clearFocus _ => true
  | .close _ => true
  | .setCapabilities _ => true
  | .useSsd _ => true
  | .setTiled _ _ => true
  | .proposeDimensions _ _ _ => true
  | .fullscreen _ _ => true
  | .informFullscreen _ => true
  | .exitFullscreen _ => true
  | .informNotFullscreen _ => true
  | .setDefault _ => true
  | .enableBinding _ _ => true
  | .disableBinding _ _ => true
  | .enablePointerBinding _ _ => true
  | .disablePointerBinding _ _ => true
  | .manageFinish => true
  | _ => false

/-- Showing a window belongs to no manage phase. -/
theorem manageOnly_showRequests (s : State) (w : Window) :
    ∀ r ∈ showRequests s w, r.manageOnly = false := by
  unfold showRequests
  split
  · simp [Request.manageOnly]
  · split <;> simp [Request.manageOnly]

/-- Nor does stacking. -/
theorem manageOnly_stackRequests (s : State) : ∀ r ∈ stackRequests s, r.manageOnly = false := by
  intro r hr
  simp only [stackRequests, List.mem_append, List.mem_flatMap, Option.mem_toList,
    Option.map_eq_some_iff, List.mem_map] at hr
  rcases hr with ⟨w, -, rfl⟩ | ⟨i, -, ⟨w, -, rfl⟩ | ⟨w, -, rfl⟩⟩ <;> rfl

/-- Showing and stacking windows needs no manage sequence. -/
theorem manageOnly_renderRequests (s : State) : ∀ r ∈ (renderable s).flatMap (showRequests s)
    ++ stackRequests s ++ [.renderFinish], r.manageOnly = false := by
  intro r hr
  rcases List.mem_append.mp hr with hr | hr
  · rcases List.mem_append.mp hr with hr | hr
    · obtain ⟨w, -, hw⟩ := List.mem_flatMap.mp hr
      exact manageOnly_showRequests s w r hw
    · exact manageOnly_stackRequests s r hr
  · rw [List.mem_singleton.mp hr]
    rfl

/-- A grab belongs to the manage phase. -/
theorem isGrab_of_manageOnly {r : Request} (h : r.manageOnly = false) : r.isGrab = false := by
  cases r <;> first | rfl | contradiction

/-- The requests of a render transaction are quiet. -/
theorem quiet_renderFinish (s : State) : Quiet True s
    { send ((renderable s).flatMap (showRequests s) ++ stackRequests s ++ [.renderFinish]) s
      with awaitingRender := false } :=
  (quiet_send (fun r hr => isGrab_of_manageOnly (manageOnly_renderRequests s r hr)) s).trans
    (quiet_fields rfl rfl rfl rfl rfl rfl rfl rfl rfl rfl (fun _ => rfl) rfl fun h => h)

/-- Haskell's part of a render sequence corrects positions. -/
theorem quiet_render (sys : System) : Quiet True sys.bridge (render sys).bridge := by
  have hmoves : ∀ (s : State) (q : WindowId × Int × Int),
      Quiet True s (xwSetRenderPosition q.1 (bounded q.2.1) (bounded q.2.2) s) :=
    fun s q => quiet_xwSetRenderPosition _ _ _ s
  exact Quiet.foldl hmoves (renderPointerPositions sys.runtime.runtimePolicy) _

/-- A render transaction is quiet. -/
theorem quiet_runRender (sys : System) :
    Quiet True { sys.bridge with phase := .idle } (runRender sys).bridge := by
  let shown := (sys.onBridge fun s => { s with phase := .render }).deliverAll
    (sizeEvents sys.bridge.windows)
  have hrendered := quiet_render shown
  have hidle : Quiet True { sys.bridge with phase := .idle }
      { (render shown).bridge with phase := .idle } := { hrendered with phase := rfl }
  exact hidle.trans (quiet_finish quiet_renderFinish (render shown).bridge)

/-! ## Callbacks -/

/-- Dealing an id forgets no failure. -/
theorem failed_newId (s : State) (h : s.failed = true) : (newId s).2.failed = true := by
  rcases newId_cases s with hid | hid <;> rw [hid]
  · rfl
  · exact h

/-- Dealing an id leaves the phase as it is. -/
theorem phase_newId (s : State) : (newId s).2.phase = s.phase := by
  rcases newId_cases s with hid | hid
  · exact congrArg (fun t => t.2.phase) hid
  · exact congrArg (fun t => t.2.phase) hid

/-- No callback outside a transaction forgets a failure. -/
theorem failed_listen (cb : Callback) (s : State) (h : s.failed = true) :
    (listen cb s).failed = true :=
  listen_induction (P := fun s' => s'.failed = true) (failed_newId s h)
    (failed_attachLayerOutput.trans (failed_newId s h))
    (failed_attachLayerSeat.trans (failed_newId s h)) (fun _ hquiet => hquiet.failed h) cb

/-- Nor does it change the phase. -/
theorem phase_listen (cb : Callback) (s : State) : (listen cb s).phase = s.phase :=
  listen_induction (P := fun s' => s'.phase = s.phase) (phase_newId s)
    ((quiet_attachLayerOutput _ _).phase.trans (phase_newId s))
    ((quiet_attachLayerSeat _ _).phase.trans (phase_newId s)) (fun _ hquiet => hquiet.phase) cb

/-- Callbacks between the transactions. -/
theorem stage_listen (cb : Callback) (sys : System) : Stage sys (sys.onBridge (listen cb)) :=
  ⟨tame_listen cb _, phase_listen cb _, failed_listen cb _, fun hf hl => ledger_listen hl hf,
    Follows.refl _⟩

end XmonadWayland.Bridge
