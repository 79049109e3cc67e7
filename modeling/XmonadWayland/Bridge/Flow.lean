import XmonadWayland.Bridge.Stream
import XmonadWayland.Bridge.Agreement

/-!
# XmonadWayland.Bridge.Flow

The log through a manage sequence.  Publishing the lifecycle leaves every record live,
announced and clean (`Announced`); the queue then only delivers events about windows
that are there, and handing over to Haskell changes no life.
-/

namespace XmonadWayland.Bridge

/-! ## Everything announced -/

/-- Once the lifecycle is published every record is live and announced, and every
geometry is out. -/
structure Announced (s : State) : Prop where
  windows : ∀ r ∈ s.windows, r.closed = false ∧ r.announced = true
  outputs : ∀ r ∈ s.outputs, r.removed = false ∧ r.announced = true ∧ r.dirty = false

/-- A quiet change keeps every window announced. -/
theorem Announced.quiet {s s' : State} (h : Announced s) (hq : Quiet True s s') : Announced s' := by
  obtain ⟨f, hf, hw⟩ := hq.windows
  obtain ⟨g, hg, ho⟩ := hq.outputs
  refine ⟨?_, ?_⟩
  · rw [hw, List.forall_mem_map]
    intro r hr
    rw [(hf r).still trivial, (hf r).announced]
    exact h.windows r hr
  · rw [ho, List.forall_mem_map]
    intro r hr
    rw [(hg r).still trivial]
    exact h.outputs r hr

theorem Announced.congr {s s' : State} (h : Announced s) (hw : s'.windows = s.windows)
    (ho : s'.outputs = s.outputs) : Announced s' := ⟨hw ▸ h.windows, ho ▸ h.outputs⟩

/-- What holds of the log at every point of a transaction. -/
structure Flow (doomed : Nat → Prop) (sys : System) : Prop where
  ledger : Ledger sys.bridge
  stream : Stream doomed sys.runtime.delivered sys.bridge

section Flow

variable {doomed : Nat → Prop} {sys : System}

/-- A quiet change of the bridge keeps the flow. -/
theorem Flow.onBridge (h : Flow doomed sys) {still : Prop} {f : State → State}
    (hq : Quiet still sys.bridge (f sys.bridge)) : Flow doomed (sys.onBridge f) :=
  ⟨h.ledger.quiet hq, h.stream.quiet hq⟩

/-- Dropping outputs and windows keeps the flow. -/
theorem flow_dropped (h : Flow doomed sys) : Flow doomed (dropWindows (dropOutputs sys)) :=
  ⟨ledger_dropWindows (ledger_dropOutputs h.ledger),
    stream_dropWindows (ledger_dropOutputs h.ledger) (stream_dropOutputs h.ledger h.stream)⟩

/-- Complete outputs that are not removed are announced by publishing them. -/
theorem flow_publishOutputs (h : Flow doomed sys)
    (hopen : ∀ r ∈ sys.bridge.windows, r.closed = false)
    (hlive : ∀ r ∈ sys.bridge.outputs, r.removed = false)
    (hf : (publishOutputs sys).bridge.failed = false) :
    Flow doomed (publishOutputs sys)
      ∧ (∀ r ∈ (publishOutputs sys).bridge.windows, r.closed = false)
      ∧ ∀ r ∈ (publishOutputs sys).bridge.outputs,
        r.removed = false ∧ r.announced = true ∧ r.dirty = false := by
  obtain ⟨hcomplete, heq⟩ := publishOutputs_eq hf
  refine ⟨⟨(stage_publishOutputs sys).ledger hf h.ledger, stream_publishOutputs h.ledger h.stream hf⟩,
    ?_, ?_⟩
  · rw [heq]
    exact hopen
  · rw [heq]
    refine List.forall_mem_map.mpr fun r hr => ⟨hlive r hr, ?_, rfl⟩
    exact announced_published (hcomplete r hr) (h.stream.dirty r hr)

/-- Announcing the windows completes the lifecycle. -/
theorem flow_announced (h : Flow doomed sys) (hf : sys.bridge.failed = false)
    (hopen : ∀ r ∈ sys.bridge.windows, r.closed = false)
    (hclean : ∀ r ∈ sys.bridge.outputs,
      r.removed = false ∧ r.announced = true ∧ r.dirty = false) :
    Flow doomed (dropSeats (publishMetadata (announceWindows sys)))
      ∧ Announced (dropSeats (publishMetadata (announceWindows sys))).bridge := by
  have hannounced : ∀ r ∈ (announceWindows sys).bridge.windows,
      r.closed = false ∧ r.announced = true :=
    List.forall_mem_map.mpr fun r hr => ⟨hopen r hr, rfl⟩
  have hl1 : Ledger (announceWindows sys).bridge := (stage_announceWindows sys).ledger hf h.ledger
  have hl2 := (stage_publishMetadata (announceWindows sys)).ledger hf hl1
  have hl3 := (stage_dropSeats (publishMetadata (announceWindows sys))).ledger hf hl2
  have hs1 := stream_announceWindows h.ledger hopen h.stream
  have hs2 := stream_publishMetadata hl1 (fun r hr => (hannounced r hr).2) hs1
  exact ⟨⟨hl3, stream_dropSeats hs2⟩, List.forall_mem_map.mpr hannounced, hclean⟩

/-- A lifecycle update that did not fail, part by part. -/
theorem updateLifecycle_eq (hf : (updateLifecycle sys).bridge.failed = false) :
    (publishOutputs (dropWindows (dropOutputs sys))).bridge.failed = false
      ∧ updateLifecycle sys = (dropSeats (publishMetadata (announceWindows
        (publishOutputs (dropWindows (dropOutputs sys)))))).onBridge
          fun s => xwSetBindingMode s.bindingMode (configurePrimary (dropSeats (publishMetadata
            (announceWindows (publishOutputs (dropWindows (dropOutputs sys)))))).runtime.runtimeConfig
            s) := by
  unfold updateLifecycle at hf ⊢
  simp only at hf ⊢
  split at hf
  · next hany =>
    rw [failed_publishOutputs hany] at hf
    contradiction
  · next hany =>
    rw [if_neg hany]
    have hq := quiet_configured (dropSeats (publishMetadata (announceWindows (publishOutputs
      (dropWindows (dropOutputs sys)))))).runtime.runtimeConfig (dropSeats (publishMetadata
        (announceWindows (publishOutputs (dropWindows (dropOutputs sys)))))).bridge
    exact ⟨not_failed_of_step hq.failed hf, rfl⟩

/-- The lifecycle update keeps the flow and announces every window. -/
theorem flow_updateLifecycle (h : Flow doomed sys)
    (hf : (updateLifecycle sys).bridge.failed = false) :
    Flow doomed (updateLifecycle sys) ∧ Announced (updateLifecycle sys).bridge := by
  obtain ⟨hpublished, heq⟩ := updateLifecycle_eq hf
  have hopen : ∀ r ∈ (dropWindows (dropOutputs sys)).bridge.windows, r.closed = false :=
    fun r hr => by simpa using (List.mem_filter.mp hr).2
  have hlive : ∀ r ∈ (dropWindows (dropOutputs sys)).bridge.outputs, r.removed = false :=
    fun r hr => by simpa using (List.mem_filter.mp hr).2
  obtain ⟨hflow, hopen, hclean⟩ := flow_publishOutputs (flow_dropped h) hopen hlive hpublished
  obtain ⟨hflow, hannounced⟩ := flow_announced hflow hpublished hopen hclean
  rw [heq]
  exact ⟨hflow.onBridge (quiet_configured _ _), hannounced.quiet (quiet_configured _ _)⟩

/-- An event about no window and no output keeps the flow. -/
theorem Flow.deliver (h : Flow doomed sys) {d : Delivered}
    (hd : d.kind ∉ ([1, 2, 3, 4, 5, 11, 12, 13, 14, 21, 25, 26, 27] : List Int)) :
    Flow doomed (sys.deliver d) := by
  refine ⟨h.ledger, ?_⟩
  have hlog : (sys.deliver d).runtime.delivered = sys.runtime.delivered ++ [d] :=
    (deliver_cases sys.runtime d).1
  rw [hlog]
  exact stream_ignored (fun d' hd' => List.mem_singleton.mp hd' ▸ hd) h.stream

/-- Publishing the lock keeps the flow. -/
theorem flow_publishLock (h : Flow doomed sys) : Flow doomed (publishLock sys) := by
  unfold publishLock
  split
  · refine Flow.onBridge (h.deliver ?_) (quiet_lockPublished _)
    simp only [Delivered.kind]
    split <;> decide
  · exact h

/-- Cancelling the operation keeps the flow. -/
theorem flow_cancelOperation (h : Flow doomed sys) : Flow doomed (cancelOperation sys) := by
  rcases cancelOperation_cases sys with heq | heq <;> rw [heq]
  · exact h.deliver (by simp [Delivered.kind])
  · exact h

/-- The stages before the queue announce everything. -/
theorem flow_beforeQueue (h : Flow doomed sys) (hf : (beforeQueue sys).bridge.failed = false) :
    Flow doomed (beforeQueue sys) ∧ Announced (beforeQueue sys).bridge := by
  have hphase : Flow doomed (sys.onBridge fun s => { s with phase := .manage }) :=
    ⟨{ h.ledger with }, h.stream.mono rfl rfl le_rfl⟩
  have hq := quiet_override false (cancelOperation (updateLifecycle (publishLock
    (sys.onBridge fun s => { s with phase := .manage })))).bridge
  have hbefore := not_failed_of_step hq.failed hf
  rw [bridge_cancelOperation] at hbefore
  obtain ⟨hflow, hannounced⟩ := flow_updateLifecycle (flow_publishLock hphase) hbefore
  rw [← bridge_cancelOperation] at hannounced
  exact ⟨(flow_cancelOperation hflow).onBridge hq, hannounced.quiet hq⟩

/-! ## The queue and the hand over -/

/-- An admitted event about a window names a recorded one. -/
theorem admits_window {s : State} {event : Input} {seat : Seat} (h : admits event s = some seat)
    (hkind : event.kind ≠ .binding) : ∃ w, findWindow event.id s = some w := by
  have hcond := (Option.filter_eq_some_iff.mp h).2
  simp only [Bool.and_eq_true, Bool.or_eq_true, decide_eq_true_eq] at hcond
  have hkinds := hcond.1.2.resolve_left fun hboth => by
    cases hk : event.kind <;> simp_all
  exact Option.isSome_iff_exists.mp hkinds

/-- An announced window that is found is alive in the log. -/
theorem alive_of_findWindow {dead : Prop} {w : Nat} {s : State} {life : Lifespan Unit}
    (hat : WindowAt dead w s life) (h : Announced s) {r : Window}
    (hfind : findWindow w s = some r) : life = .alive () := by
  obtain ⟨hmem, hid, -⟩ := findWindow_some hfind
  rw [hat.record r hmem hid, if_pos (h.windows r hmem).2]

/-- Queued input about a window that is there, or about no window. -/
theorem live_input {dead : Prop} {w : Nat} {s : State} {life : Lifespan Unit}
    (hat : WindowAt dead w s life) (h : Announced s) (kind : InputKind) (id : Nat)
    (hfind : kind ≠ .binding → ∃ r, findWindow id s = some r) (a b c d : Int) :
    live (windowRole w) life (.event kind.code id a b c d) = some life := by
  have huses : kind ≠ .binding → id = w → windowRole w (.event kind.code id a b c d) = .uses →
      live (windowRole w) life (.event kind.code id a b c d) = some life := by
    intro hkind hid hrole
    obtain ⟨r, hr⟩ := hfind hkind
    obtain rfl := alive_of_findWindow hat h (hid ▸ hr)
    exact (live_of_uses hrole).mpr ⟨⟨(), rfl⟩, rfl⟩
  by_cases hid : id = w
  · cases kind with
    | binding =>
        exact live_of_other (windowRole_of_kind (by simp [Delivered.kind, InputKind.code])) life
    | interaction =>
        exact huses (by decide) hid (by simp [windowRole, windowUses, InputKind.code, hid])
    | pointer =>
        exact huses (by decide) hid (by simp [windowRole, windowUses, InputKind.code, hid])
  · exact live_of_other (windowRole_of_ident (by exact hid)) life

/-- Draining one event keeps the flow. -/
theorem flow_drainEvent (h : Flow doomed sys) (hannounced : Announced sys.bridge) (event : Input) :
    Flow doomed (drainEvent sys event) ∧ Announced (drainEvent sys event).bridge := by
  unfold drainEvent
  cases hadmit : admits event sys.bridge with
  | none => exact ⟨h, hannounced⟩
  | some seat =>
      have hq := quiet_drainOverride seat sys.bridge
      obtain ⟨hkind, hid, -⟩ := locateInput_eq seat event
      have hannounced' := hannounced.quiet hq
      have hflow := h.onBridge hq
      refine ⟨⟨hflow.ledger, ?_⟩, hannounced'⟩
      change Stream doomed (Runtime.deliver _ _).delivered _
      rw [(deliver_cases _ _).1, hkind, hid]
      refine hflow.stream.extend (fun w life hat => ⟨life, ?_, hat⟩)
        (fun o life hat => ⟨life, run_ignored_outputs o life fun d hd => ?_, hat⟩)
        hflow.stream.dirty
      · rw [runMonitor_singleton]
        refine live_input hat hannounced' event.kind event.id (fun hk => ?_) _ _ _ _
        obtain ⟨r, hr⟩ := admits_window hadmit hk
        exact hq.findWindow event.id hr
      · rw [List.mem_singleton.mp hd]
        simp only [Delivered.kind]
        cases event.kind <;> decide

/-- Draining the queue keeps the flow. -/
theorem flow_drainInput (h : Flow doomed sys) (hannounced : Announced sys.bridge) :
    Flow doomed (drainInput sys) ∧ Announced (drainInput sys).bridge := by
  obtain ⟨hdrained, hdrained'⟩ : Flow doomed (sys.bridge.input.foldl drainEvent sys)
      ∧ Announced (sys.bridge.input.foldl drainEvent sys).bridge :=
    List.foldlRecOn (motive := fun t => Flow doomed t ∧ Announced t.bridge) _ drainEvent
      ⟨h, hannounced⟩ fun t ht event _ => flow_drainEvent ht.1 ht.2 event
  exact ⟨⟨{ hdrained.ledger with }, hdrained.stream.mono rfl rfl le_rfl⟩, hdrained'.congr rfl rfl⟩

/-- Publishing the drag keeps the flow. -/
theorem flow_publishDrag (h : Flow doomed sys) (hannounced : Announced sys.bridge) :
    Flow doomed (publishDrag sys) ∧ Announced (publishDrag sys).bridge := by
  rcases publishDrag_cases sys with heq | ⟨id, events, hkinds, heq⟩ <;> rw [heq]
  · exact ⟨h, hannounced⟩
  · have hq := quiet_modifySeat id seatStep_settle sys.bridge
    refine ⟨⟨h.ledger.quiet hq, ?_⟩, hannounced.quiet hq⟩
    change Stream doomed (List.foldl Runtime.deliver _ _).delivered _
    rw [delivered_deliverAll]
    refine stream_ignored (fun d hd => ?_) (h.stream.quiet hq)
    rcases hkinds d hd with hkind | hkind <;> simp [hkind]

end Flow

/-- Setting the operation touches no window and no output. -/
theorem records_xwSetPointerOperation (seat window edges : Nat) (s : State) :
    (xwSetPointerOperation seat window edges s).windows = s.windows
      ∧ (xwSetPointerOperation seat window edges s).outputs = s.outputs
      ∧ (xwSetPointerOperation seat window edges s).nextId = s.nextId := by
  have hend := regrab_endOperation s
  unfold xwSetPointerOperation
  split
  · exact ⟨rfl, rfl, rfl⟩
  · split
    · exact ⟨rfl, rfl, rfl⟩
    · split
      · split
        · exact ⟨hend.windows, hend.outputs, hend.nextId⟩
        · exact ⟨hend.windows, hend.outputs, hend.nextId⟩
      · split
        · exact ⟨rfl, rfl, rfl⟩
        · split
          · next seat window _ _ =>
            split
            · exact ⟨rfl, rfl, rfl⟩
            · have hstart := regrab_startOperation seat window edges s
              exact ⟨hstart.windows, hstart.outputs, hstart.nextId⟩
          · exact ⟨rfl, rfl, rfl⟩

/-- The end of a manage sequence changes no life. -/
structure Told (doomed : Nat → Prop) (log : List Delivered) (s : State) : Prop where
  stream : Stream doomed log s
  announced : Announced s

section Told

variable {doomed : Nat → Prop} {log : List Delivered} {s s' : State} {sys : System}

/-- A quiet change keeps what was told. -/
theorem Told.quiet (h : Told doomed log s) (hq : Quiet True s s') : Told doomed log s' :=
  ⟨h.stream.quiet hq, h.announced.quiet hq⟩

/-- Pushing the policy tells nothing. -/
theorem told_applyPolicy (h : Told doomed log s) (p : Policy) : Told doomed log (applyPolicy p s) := by
  have hmode := h.quiet (quiet_xwSetBindingMode p.activeMode.fromEnum s)
  obtain ⟨hw, ho, hn⟩ := records_xwSetPointerOperation (operationTriple p).1 (operationTriple p).2.1
    (operationTriple p).2.2 (xwSetBindingMode p.activeMode.fromEnum s)
  have hset : Told doomed log (xwSetPointerOperation (operationTriple p).1 (operationTriple p).2.1
      (operationTriple p).2.2 (xwSetBindingMode p.activeMode.fromEnum s)) :=
    ⟨hmode.stream.mono hw ho hn.ge, hmode.announced.congr hw ho⟩
  rw [applyPolicy_eq]
  exact hset.quiet (quiet_pushed p _)

/-- Executing an effect is quiet and delivers nothing. -/
theorem quiet_execute (sys : System) (effect : Effect) :
    Quiet True sys.bridge (execute sys effect).bridge
      ∧ (execute sys effect).runtime.delivered = sys.runtime.delivered := by
  cases effect with
  | closeWindow wid => exact ⟨quiet_xwClose wid _, rfl⟩
  | stopRuntime => exact ⟨quiet_xwStop _, rfl⟩
  | reloadConfig =>
      simp only [execute, reload]
      split
      · exact ⟨Quiet.refl _, rfl⟩
      · exact ⟨(quiet_xwResetBindings _ _).trans (quiet_xwSetBindingMode _ _), rfl⟩
  | _ => exact ⟨Quiet.refl _, rfl⟩

/-- The manage callback tells of no window. -/
theorem told_manage (h : Told doomed sys.runtime.delivered sys.bridge) :
    Told doomed (manage sys).runtime.delivered (manage sys).bridge := by
  have hpushed := told_applyPolicy h sys.runtime.runtimePolicy
  refine manage_induction (P := fun t => Told doomed t.runtime.delivered t.bridge) ?_
    fun t effect ht => ?_
  · refine ⟨stream_ignored (fun d hd => ?_) hpushed.stream, hpushed.announced⟩
    rw [List.mem_singleton.mp hd]
    decide
  · obtain ⟨hq, hlog⟩ := quiet_execute t effect
    exact hlog ▸ ht.quiet hq

/-- Nor does the end of a manage transaction. -/
theorem told_finishManage (h : Told doomed sys.runtime.delivered sys.bridge) :
    Told doomed (finishManage sys).runtime.delivered (finishManage sys).bridge := by
  have hphase : ∀ {t : State} {log : List Delivered}, Told doomed log t →
      Told doomed log { t with phase := .idle } := fun ht =>
    ⟨ht.stream.mono rfl rfl le_rfl, ht.announced.congr rfl rfl⟩
  have hcancel : Told doomed sys.runtime.delivered { sys.bridge with pointerCancelBatch := false } :=
    ⟨h.stream.mono rfl rfl le_rfl, h.announced.congr rfl rfl⟩
  unfold finishManage
  simp only
  split
  · exact (hphase hcancel).quiet (quiet_finish quiet_manageFinish _)
  · have hmanaged : Told doomed (manage (sys.onBridge fun s =>
        { s with pointerCancelBatch := false })).runtime.delivered (manage (sys.onBridge fun s =>
          { s with pointerCancelBatch := false })).bridge := told_manage hcancel
    exact (hphase hmanaged).quiet (quiet_finish quiet_manageFinish _)

/-- A whole manage sequence. -/
theorem told_runManage (h : Flow doomed sys) (hf : (beforeQueue sys).bridge.failed = false) :
    Told doomed (runManage sys).runtime.delivered (runManage sys).bridge := by
  obtain ⟨hflow, hannounced⟩ := flow_beforeQueue h hf
  obtain ⟨hflow, hannounced⟩ := flow_drainInput hflow hannounced
  obtain ⟨hflow, hannounced⟩ := flow_publishDrag hflow hannounced
  rw [runManage_eq]
  exact told_finishManage ⟨hflow.stream, hannounced⟩

end Told

end XmonadWayland.Bridge
