import XmonadWayland.Bridge.Stage

/-!
# XmonadWayland.Bridge.Agreement

Bridge and policy agree about the pointer operation.  Up to the input queue the stages
of a manage sequence only drop the policy's operation (`Stage`); a queued start makes
the policy begin one the bridge would start (`Draining`), so that the hand over of the
operation succeeds (`manage`).  Every run keeps the agreement.
-/

namespace XmonadWayland.Bridge

/-! ## The queue -/

/-- What holds while the queue is drained. -/
structure Draining (sys : System) : Prop where
  reachable : Reachable sys.runtime.runtimeConfig sys.runtime.runtimePolicy
  operation : Operation sys.bridge
  phase : sys.bridge.phase = .manage
  ledger : sys.bridge.failed = false → Ledger sys.bridge
  live : sys.bridge.failed = false → ∀ seat ∈ sys.bridge.seats, seat.removed = false
  ready : sys.bridge.failed = false → Ready sys.runtime.runtimePolicy sys.bridge

/-- A quiet change of the bridge keeps the draining invariant. -/
theorem Draining.onBridge {sys : System} (h : Draining sys) {f : State → State}
    (hq : Quiet True sys.bridge (f sys.bridge)) : Draining (sys.onBridge f) where
  reachable := h.reachable
  operation := h.operation.tame (Tame.of_quiet hq)
  phase := hq.phase.trans h.phase
  ledger hf := (h.ledger (not_failed_of_step hq.failed hf)).quiet hq
  live hf := hq.live (h.live (not_failed_of_step hq.failed hf))
  ready hf := (h.ready (not_failed_of_step hq.failed hf)).quiet hq

/-- A delivered event other than the start of an operation keeps it. -/
theorem Draining.deliver {sys : System} (h : Draining sys) {d : Delivered} (hd : d.kind ≠ 21) :
    Draining (sys.deliver d) :=
  { h with
    reachable := reachable_deliver h.reachable d
    ready := fun hf => (h.ready hf).drop ((follows_deliver hd sys.runtime).operation h.reachable) }

/-- Delivering a list of such events keeps it. -/
theorem Draining.deliverAll {sys : System} (h : Draining sys) {ds : List Delivered}
    (hds : ∀ d ∈ ds, d.kind ≠ 21) : Draining (sys.deliverAll ds) :=
  { h with
    reachable := (follows_deliverAll hds sys.runtime).reachable h.reachable
    ready := fun hf =>
      (h.ready hf).drop ((follows_deliverAll hds sys.runtime).operation h.reachable) }

/-- The primary seat is recorded and is the one `primary` names. -/
theorem primarySeat_some {s : State} {seat : Seat} (h : primarySeat s = some seat) :
    s.primary = some seat.id ∧ seat ∈ s.seats := by
  obtain ⟨id, hid, hfind⟩ := Option.bind_eq_some_iff.mp h
  have hp := List.find?_some hfind
  simp only [decide_eq_true_eq] at hp
  exact ⟨hp ▸ hid, List.mem_of_find?_eq_some hfind⟩

/-- What the drain has checked of a queued start. -/
theorem canGrab_of_admits {s : State} (hl : Ledger s)
    (hlive : ∀ seat ∈ s.seats, seat.removed = false) {event : Input} {seat : Seat}
    (hkind : event.kind = .pointer) (h : admits event s = some seat) :
    event.seatId = seat.id ∧ CanGrab seat.id event.id s := by
  obtain ⟨hprimary, hcond⟩ := Option.filter_eq_some_iff.mp h
  obtain ⟨hid, hmem⟩ := primarySeat_some hprimary
  simp only [hkind, Bool.and_eq_true, decide_eq_true_eq, Bool.not_eq_true', Bool.or_eq_true,
    ne_eq, not_true_eq_false, and_false, decide_false, false_or, Bool.false_eq_true] at hcond
  obtain ⟨⟨⟨⟨-, hlocked⟩, hseat⟩, hwindow⟩, -, hfocus⟩ := hcond
  refine ⟨hseat, ?_, Option.isSome_iff_exists.mp hwindow, hid, hlocked⟩
  have hfound : (findSeat seat.id s).isSome := by
    rw [findSeat, List.find?_isSome]
    exact ⟨seat, hmem, by simp [hlive seat hmem]⟩
  obtain ⟨seat', hseat'⟩ := Option.isSome_iff_exists.mp hfound
  obtain ⟨hmem', hid', -⟩ := findSeat_some hseat'
  obtain rfl := eq_of_numbered hl.seats hmem' hmem hid'
  exact ⟨seat', hseat', hfocus⟩

/-- The policy after a queued start has no operation the bridge would not start. -/
theorem ready_start {cfg : Config} {p : Policy} {s : State} (hr : Reachable cfg p)
    (hready : Ready p s) {sid : SeatId} {wid : WindowId} (hcan : CanGrab sid wid s)
    (hz : s.pointerSeat = 0) (edges : Nat) (x y : Int) :
    Ready (step cfg p (.pointerStarted sid wid edges x y)) s := by
  intro op hop
  refine Or.inr ⟨hz, ?_⟩
  rcases operation_step_pointerStarted hr hop with hsame | ⟨-, rfl, rfl⟩
  · exact ((hready op hsame).resolve_left fun h => h.1 hz).2
  · exact hcan

/-- Delivering event 21 is the policy's step on the start of an operation. -/
theorem policy_deliver_start (rt : Runtime) (id : Nat) (a b c d : Int) :
    (rt.deliver (.event 21 id a b c d)).runtimePolicy
      = step rt.runtimeConfig rt.runtimePolicy (.pointerStarted (word32 a) id (word32 b) c d) := rfl

/-- Draining one queued event keeps the invariant and the queue. -/
theorem draining_drainEvent {sys : System} (h : Draining sys) {event : Input}
    (he : event ∈ sys.bridge.input) :
    Draining (drainEvent sys event) ∧ (drainEvent sys event).bridge.input = sys.bridge.input := by
  unfold drainEvent
  cases hadmit : admits event sys.bridge with
  | none => exact ⟨h, rfl⟩
  | some seat =>
      simp only
      have hq := quiet_drainOverride seat sys.bridge
      obtain ⟨extra, -, hstill, hinput⟩ := hq.input
      rw [hstill trivial, List.append_nil] at hinput
      obtain ⟨hkind, hid, hargument⟩ := locateInput_eq seat event
      refine ⟨?_, hinput⟩
      have hbridge := h.onBridge hq
      by_cases hpointer : event.kind = .pointer
      · -- The seat's id survives the ABI, so the operation is of the primary seat.
        obtain ⟨hz, harg⟩ := h.operation.input event he hpointer
        have hcode : (locateInput seat event).kind.code = 21 := by rw [hkind, hpointer]; rfl
        rw [hcode, hid, hargument]
        refine { hbridge with reachable := reachable_deliver h.reachable _, ready := fun hf => ?_ }
        have hbefore := not_failed_of_step hq.failed hf
        have hl := h.ledger hbefore
        obtain ⟨hseat, hcan⟩ := canGrab_of_admits hl (h.live hbefore) hpointer hadmit
        have hle := hl.seats.bounded _ (List.mem_map_of_mem (f := Seat.id)
          (primarySeat_some (Option.filter_eq_some_iff.mp hadmit).1).2)
        have hbound := hl.bound
        have hsid : word32 event.argument = seat.id := by
          rw [harg, hseat, word32_int32 (by omega)]
        change Ready (Runtime.deliver _ _).runtimePolicy _
        rw [policy_deliver_start, hsid]
        exact ready_start h.reachable ((h.ready hbefore).quiet hq) (hcan.quiet hq)
          (hq.pointerSeat.trans hz) _ _ _
      · refine hbridge.deliver ?_
        change (locateInput seat event).kind.code ≠ 21
        rw [hkind]
        cases hk : event.kind with
        | pointer => exact absurd hk hpointer
        | _ => decide

/-- Draining the queue keeps the invariant and leaves the queue empty. -/
theorem draining_drainInput {sys : System} (h : Draining sys) :
    Draining (drainInput sys) ∧ (drainInput sys).bridge.input = [] := by
  have hfold : Draining (sys.bridge.input.foldl drainEvent sys)
      ∧ (sys.bridge.input.foldl drainEvent sys).bridge.input = sys.bridge.input :=
    List.foldlRecOn (motive := fun t => Draining t ∧ t.bridge.input = sys.bridge.input) _ drainEvent
      ⟨h, rfl⟩ fun t ⟨ht, hinput⟩ event he =>
        (draining_drainEvent ht (hinput ▸ he)).imp_right fun hsame => hsame.trans hinput
  have hdrained := hfold.1
  refine ⟨⟨hdrained.reachable, ?_, hdrained.phase, fun hf => ?_, hdrained.live, fun hf => ?_⟩, rfl⟩
  · exact { hdrained.operation with input := nofun }
  · exact { hdrained.ledger hf with }
  · exact fun op hop => (hdrained.ready hf op hop).imp_right fun hc => ⟨hc.1, { hc.2 with }⟩

/-- Publishing the drag keeps the invariant and the queue. -/
theorem draining_publishDrag {sys : System} (h : Draining sys) :
    Draining (publishDrag sys) ∧ (publishDrag sys).bridge.input = sys.bridge.input := by
  rcases publishDrag_cases sys with heq | ⟨id, events, hkinds, heq⟩ <;> rw [heq]
  · exact ⟨h, rfl⟩
  · refine ⟨Draining.onBridge (h.deliverAll fun d hd => ?_)
      (quiet_modifySeat _ seatStep_settle _), rfl⟩
    rcases hkinds d hd with hkind | hkind <;> simp [hkind]

/-! ## The hand over -/

/-- After the hand over. -/
structure Handed (sys : System) : Prop where
  reachable : Reachable sys.runtime.runtimeConfig sys.runtime.runtimePolicy
  operation : Operation sys.bridge
  ledger : Ledger sys.bridge
  agree : sys.bridge.pointerTriple = operationTriple sys.runtime.runtimePolicy
  given : ∀ op, sys.runtime.runtimePolicy.pointerOperation = some op → op.pointerSeat ≠ 0

/-- A quiet change of the bridge keeps what was handed over. -/
theorem Handed.onBridge {sys : System} (h : Handed sys) {f : State → State}
    (hq : Quiet True sys.bridge (f sys.bridge)) : Handed (sys.onBridge f) :=
  ⟨h.reachable, h.operation.tame (Tame.of_quiet hq), h.ledger.quiet hq,
    hq.pointerTriple.trans h.agree, h.given⟩

/-- A change of the operation keeps the ledger. -/
theorem Ledger.regrab {s s' : State} (hl : Ledger s) (h : Regrab s s') : Ledger s' := by
  obtain ⟨f, hf, heq⟩ := h.seats
  have hids : s'.seats.map Seat.id = s.seats.map Seat.id := by
    rw [heq, List.map_map]
    exact List.map_congr_left fun x _ => (hf x).id
  refine hl.of_sublists h.issued h.nextId (h.windows ▸ List.Sublist.refl _)
    (h.outputs ▸ List.Sublist.refl _) (hids ▸ List.Sublist.refl _) fun id hid => ?_
  obtain ⟨seat, hmem, rfl⟩ := hl.primary id (h.primary ▸ hid)
  exact ⟨f seat, heq ▸ List.mem_map_of_mem hmem, (hf seat).id⟩

/-- Pushing a ready policy. -/
theorem handed_applyPolicy {p : Policy} {s : State} (h : Operation s) (hl : Ledger s)
    (hphase : s.phase = .manage) (hqueue : s.input = []) (hready : Ready p s) :
    Operation (applyPolicy p s) ∧ Ledger (applyPolicy p s)
      ∧ (applyPolicy p s).pointerTriple = operationTriple p := by
  have hmode := quiet_xwSetBindingMode p.activeMode.fromEnum s
  obtain ⟨extra, -, hstill, hinput⟩ := hmode.input
  rw [hstill trivial, List.append_nil, hqueue] at hinput
  obtain ⟨s', heq, hop, htriple, hregrab⟩ := operation_xwSetPointerOperation
    (h.tame (Tame.of_quiet hmode)) (hl.quiet hmode) (hmode.phase.trans hphase)
    (hinput ▸ nofun) (hready.quiet hmode)
  have hrest : Quiet True s' (applyPolicy p s) := by
    rw [applyPolicy_eq, heq]
    exact quiet_pushed p s'
  exact ⟨hop.tame (Tame.of_quiet hrest), ((hl.quiet hmode).regrab hregrab).quiet hrest,
    hrest.pointerTriple.trans htriple⟩

/-- Reloading the configuration keeps what was handed over. -/
theorem handed_reload {sys : System} (h : Handed sys) : Handed (reload sys) := by
  unfold reload
  simp only
  split
  · exact { h with }
  · next cfg hcfg =>
    obtain ⟨hvalid, hsame⟩ := of_decide_eq_true (Option.filter_eq_some_iff.mp hcfg).2
    have hbridge := h.onBridge (f := fun s => xwSetBindingMode
      sys.runtime.runtimePolicy.activeMode.fromEnum (xwResetBindings cfg s))
      ((quiet_xwResetBindings cfg sys.bridge).trans (quiet_xwSetBindingMode _ _))
    exact { hbridge with reachable := h.reachable.reload hvalid hsame }

/-- Executing an effect keeps what was handed over. -/
theorem handed_execute {sys : System} (h : Handed sys) (effect : Effect) :
    Handed (execute sys effect) := by
  have hexecuted : Handed { sys with
      runtime := { sys.runtime with executed := sys.runtime.executed ++ [effect] } } := { h with }
  cases effect with
  | closeWindow wid => exact hexecuted.onBridge (quiet_xwClose wid _)
  | stopRuntime => exact hexecuted.onBridge (quiet_xwStop _)
  | reloadConfig => exact handed_reload hexecuted
  | _ => exact hexecuted

/-- The manage callback hands the policy's operation over to the bridge. -/
theorem handed_manage {sys : System} (h : Draining sys) (hqueue : sys.bridge.input = [])
    (hf : sys.bridge.failed = false) : Handed (manage sys) := by
  have hl := h.ledger hf
  have hready := h.ready hf
  obtain ⟨hop, hledger, hagree⟩ := handed_applyPolicy h.operation hl h.phase hqueue hready
  exact manage_induction ⟨h.reachable, hop, hledger, hagree, fun op => hready.seat_ne hl⟩
    fun t effect ht => handed_execute ht effect

/-! ## Every run -/

/-- What holds between two callbacks. -/
structure Agreement (sys : System) : Prop where
  reachable : Reachable sys.runtime.runtimeConfig sys.runtime.runtimePolicy
  operation : Operation sys.bridge
  ledger : sys.bridge.failed = false → Ledger sys.bridge
  inStep : sys.bridge.failed = false → InStep sys.runtime.runtimePolicy sys.bridge

/-- Once handed over, bridge and policy agree. -/
theorem Handed.agreement {sys : System} (h : Handed sys) : Agreement sys := by
  refine ⟨h.reachable, h.operation, fun _ => h.ledger, fun _ op hop => ⟨?_, h.agree⟩⟩
  have ht : operationTriple sys.runtime.runtimePolicy
      = (op.pointerSeat, op.pointerWindow, op.pointerEdges) := by rw [operationTriple, hop]
  exact fun hz => h.given op hop ((congrArg Prod.fst (h.agree.trans ht)).symm.trans hz)

/-- A stage of the transaction keeps the agreement. -/
theorem Agreement.stage {sys sys' : System} (h : Agreement sys) (hs : Stage sys sys') :
    Agreement sys' where
  reachable := hs.follows.reachable h.reachable
  operation := h.operation.tame hs.tame
  ledger hf := hs.ledger hf (h.ledger (not_failed_of_step hs.failed hf))
  inStep hf op hop := by
    rw [State.pointerTriple, hs.tame.pointerSeat, hs.tame.pointerWindow, hs.tame.pointerEdges]
    exact (h.inStep (not_failed_of_step hs.failed hf)).drop (hs.follows.operation h.reachable) op hop

/-- A quiet change of the bridge keeps the agreement. -/
theorem Agreement.onBridge {sys : System} (h : Agreement sys) {still : Prop} {f : State → State}
    (hq : Quiet still sys.bridge (f sys.bridge)) : Agreement (sys.onBridge f) :=
  h.stage (Stage.onBridge hq)

/-- The phase does not matter. -/
theorem Agreement.phase {sys : System} (h : Agreement sys) (phase : Phase) :
    Agreement (sys.onBridge fun s => { s with phase := phase }) where
  reachable := h.reachable
  operation := { h.operation with }
  ledger hf := { h.ledger hf with }
  inStep := h.inStep

/-- Finishing a phase quietly keeps the agreement. -/
theorem Agreement.finish {sys : System} (h : Agreement sys) {g : State → State}
    (hg : ∀ s, Quiet True s (g s)) : Agreement (sys.onBridge fun s =>
      sendStop { (if s.failed then s else g s) with phase := .idle }) :=
  (h.phase .idle).onBridge (f := fun _ => sendStop { (if sys.bridge.failed then sys.bridge
    else g sys.bridge) with phase := .idle }) (quiet_finish hg sys.bridge)

/-- What holds after a manage sequence. -/
structure Level (sys : System) : Prop extends Agreement sys where
  level : sys.bridge.failed = false →
    sys.bridge.pointerTriple = operationTriple sys.runtime.runtimePolicy

/-- The end of a manage transaction makes bridge and policy level. -/
theorem level_finishManage {sys : System} (h : Draining sys) (hqueue : sys.bridge.input = []) :
    Level (finishManage sys) := by
  have hcancel : Draining (sys.onBridge fun s => { s with pointerCancelBatch := false }) :=
    h.onBridge (f := fun s => { s with pointerCancelBatch := false })
      (quiet_fields rfl rfl rfl rfl rfl rfl rfl rfl rfl rfl (fun _ => rfl) rfl fun h => h)
  have hfinish := quiet_finish quiet_manageFinish
  unfold finishManage
  simp only
  split
  · next hf =>
    have hagree : Agreement (sys.onBridge fun s => { s with pointerCancelBatch := false }) :=
      ⟨hcancel.reachable, hcancel.operation, fun h => absurd (hf.symm.trans h) nofun,
        fun h => absurd (hf.symm.trans h) nofun⟩
    have hstill := (hfinish { sys.bridge with pointerCancelBatch := false }).failed hf
    exact ⟨hagree.finish quiet_manageFinish, fun h => absurd (hstill.symm.trans h) nofun⟩
  · next hf =>
    have hhanded := handed_manage hcancel hqueue (Bool.eq_false_iff.mpr hf)
    refine ⟨hhanded.agreement.finish quiet_manageFinish, fun _ => ?_⟩
    exact (hfinish _).pointerTriple.trans hhanded.agree

/-- Before the queue is drained the draining invariant holds. -/
theorem draining_beforeQueue {sys : System} (h : Agreement sys) : Draining (beforeQueue sys) := by
  have hstage := stage_beforeQueue sys
  have hbefore := (h.phase .manage).stage hstage
  exact ⟨hbefore.reachable, hbefore.operation, hstage.phase, hbefore.ledger, live_beforeQueue,
    fun hf => (hbefore.inStep hf).ready⟩

/-- The system Haskell is handed over in. -/
def handedOver (sys : System) : System := publishDrag (drainInput (beforeQueue sys))

/-- A manage transaction hands its events over, then finishes. -/
theorem runManage_handedOver (sys : System) : runManage sys = finishManage (handedOver sys) := rfl

/-- After the events are handed over the invariant holds and the queue is empty. -/
theorem draining_handedOver {sys : System} (h : Agreement sys) :
    Draining (handedOver sys) ∧ (handedOver sys).bridge.input = [] := by
  obtain ⟨hdrained, hempty⟩ := draining_drainInput (draining_beforeQueue h)
  obtain ⟨hdragged, hinput⟩ := draining_publishDrag hdrained
  exact ⟨hdragged, hinput.trans hempty⟩

/-- A manage transaction ends with bridge and policy level. -/
theorem level_runManage {sys : System} (h : Agreement sys) : Level (runManage sys) := by
  obtain ⟨hdraining, hempty⟩ := draining_handedOver h
  rw [runManage_handedOver]
  exact level_finishManage hdraining hempty

/-- So does the callback that starts one. -/
theorem level_managerManageStart {sys : System} (h : Agreement sys) :
    Level (managerManageStart sys) := by
  rcases managerManageStart_cases sys with ⟨hf, heq⟩ | ⟨message, hne, heq⟩ | ⟨-, heq⟩ <;> rw [heq]
  · exact ⟨h, fun hf' => absurd (hf.symm.trans hf') nofun⟩
  · exact ⟨h.onBridge (quiet_fail hne _ : Quiet True _ _), nofun⟩
  · exact level_runManage h

/-- The render callback keeps the agreement. -/
theorem agreement_render {sys : System} (h : Agreement sys) : Agreement (render sys) := by
  have hmoved := h.onBridge (f := fun s => (renderPointerPositions sys.runtime.runtimePolicy).foldl
    (fun s q => xwSetRenderPosition q.1 (bounded q.2.1) (bounded q.2.2) s) s) (quiet_render sys)
  exact { hmoved with }

/-- A render transaction keeps the agreement. -/
theorem agreement_runRender {sys : System} (h : Agreement sys) : Agreement (runRender sys) := by
  have hsizes := (h.phase .render).stage (Stage.deliverAll (sizeEvents sys.bridge.windows)
    (List.forall_mem_map.mpr fun _ _ => by simp [Delivered.kind]) _)
  exact (agreement_render hsizes).finish quiet_renderFinish

/-- So does the callback that starts one. -/
theorem agreement_managerRenderStart {sys : System} (h : Agreement sys) :
    Agreement (managerRenderStart sys) := by
  rcases managerRenderStart_cases sys with ⟨-, heq⟩ | ⟨message, hne, heq⟩ | ⟨-, heq⟩ <;> rw [heq]
  · exact h
  · exact h.onBridge (quiet_fail hne _ : Quiet True _ _)
  · exact agreement_runRender h

/-- Every callback keeps the agreement. -/
theorem agreement_step (sys : System) (cb : Callback) (h : Agreement sys) :
    Agreement (sys.step cb) :=
  step_induction (level_managerManageStart h).toAgreement (agreement_managerRenderStart h)
    (fun cb => h.stage (stage_listen cb sys)) cb

/-- Every sequence of callbacks keeps the agreement. -/
theorem agreement_runSystem {sys : System} (h : Agreement sys) (cbs : List Callback) :
    Agreement (runSystem cbs sys) := runSystem_induction agreement_step h cbs

/-- The initial system of an accepted configuration is in agreement. -/
theorem agreement_initial {cfg : Config} (h : validateConfig cfg = .ok ())
    (loads : List (Option Config)) (decode : List UInt8 → String) :
    Agreement (initialSystem cfg loads decode) := by
  have hnone : (initialPolicy cfg).pointerOperation = none := rfl
  refine ⟨Reachable.initial h, operation_initial, fun _ => ledger_initial, fun _ op hop => ?_⟩
  exact absurd (hop.symm.trans hnone) nofun

/-- Starts and finishes of a held log alternate, the start first. -/
theorem Holds.alternating {requests : List Request} {start finish : Request} {holding gone : Prop}
    (h : Holds requests start finish holding gone) (hne : start ≠ finish) :
    ∃ n, (requests.filter fun r => r = start ∨ r = finish)
      = XmonadWayland.alternating start finish n := by
  obtain ⟨held, hrun, -, -⟩ := h.run
  obtain ⟨n, hn, -⟩ := alternates_of_toggle hne hrun
  exact ⟨n, hn⟩

end XmonadWayland.Bridge

namespace XmonadWayland

open Bridge

/-- **Pointer grabs**: in every run the requests about the operations of a seat and the
resizes of a window alternate, no operation is replaced within a manage sequence, and
after a manage sequence without failure bridge and policy have the same operation. -/
theorem pointer_grab_agreement {cfg : Config} (hcfg : validateConfig cfg = .ok ())
    (loads : List (Option Config)) (decode : List UInt8 → String) (cbs : List Callback) :
    let sys := runSystem cbs (initialSystem cfg loads decode)
    let managed := managerManageStart sys
    (managed.bridge.failed = false → (managed.bridge.pointerSeat, managed.bridge.pointerWindow,
        managed.bridge.pointerEdges) = operationTriple managed.runtime.runtimePolicy)
      ∧ cannotReplace ∉ sys.bridge.failures
      ∧ (sys.bridge.failed = false → (∀ seat ∈ sys.bridge.seats, 1 ≤ seat.id)
        ∧ ∀ w ∈ sys.bridge.windows, 1 ≤ w.id)
      ∧ ∀ id, 1 ≤ id → ((∃ n, (sys.bridge.requests.filter fun r =>
            r = .opStartPointer id ∨ r = .opEnd id)
          = alternating (.opStartPointer id) (.opEnd id) n)
        ∧ ∃ n, (sys.bridge.requests.filter fun r =>
            r = .informResizeStart id ∨ r = .informResizeEnd id)
          = alternating (.informResizeStart id) (.informResizeEnd id) n) := by
  intro sys managed
  have h : Agreement sys := agreement_runSystem (agreement_initial hcfg loads decode) cbs
  refine ⟨(level_managerManageStart h).level, h.operation.failures, fun hf => ⟨?_, ?_⟩,
    fun id hid => ⟨?_, ?_⟩⟩
  · exact fun seat hmem => (h.ledger hf).seats.positive _ (List.mem_map_of_mem hmem)
  · exact fun w hmem => (h.ledger hf).windows.positive _ (List.mem_map_of_mem hmem)
  · exact (h.operation.seats id hid).alternating nofun
  · exact (h.operation.windows id hid).alternating nofun

/-- A press on a floating window. -/
def pressedCallbacks : List Callback :=
  [.registryXkb, .managerSeat, .managerOutput, .outputPosition 2 0 0, .outputDimensions 2 800 600,
    .managerWindow, .windowDimensionsHint 3 100 100 100 100, .managerManageStart,
    .windowDimensions 3 400 300, .managerRenderStart, .seatPointerEnter 1 3, .pointerPressed 1 272]

def pressedSystem : System :=
  managerManageStart (runSystem pressedCallbacks (initialSystem defaultConfig [] fun _ => ""))

/-- After a press and a transaction both sides hold window 3 for seat 1. -/
theorem pointer_grab_agreement_pressed : pressedSystem.bridge.pointerTriple = (1, 3, 0)
    ∧ operationTriple pressedSystem.runtime.runtimePolicy = (1, 3, 0) := by
  have hpressed : pressedSystem.bridge.pointerTriple = (1, 3, 0) := by decide +kernel
  have hfailed : pressedSystem.bridge.failed = false := by decide +kernel
  unfold pressedSystem at hpressed hfailed ⊢
  obtain ⟨hagree, -⟩ := pointer_grab_agreement validateConfig_defaultConfig [] (fun _ => "")
    pressedCallbacks
  exact ⟨hpressed, (hagree hfailed).symm.trans hpressed⟩

end XmonadWayland
