import XmonadWayland.Bridge.Flow

/-!
# XmonadWayland.Bridge.Sync

Bridge and policy in step.  In every run without failure the log fits the records and
the policy mirrors the log; after a manage sequence all records are announced, so the
policy's windows and outputs are those of the bridge.
-/

namespace XmonadWayland.Bridge

/-! ## The mirror in a transaction -/

section Mirrored

variable {sys : System}

/-- Publishing outputs keeps the mirror. -/
theorem mirror_publishOutputs (h : Mirror sys.runtime) : Mirror (publishOutputs sys).runtime := by
  unfold publishOutputs
  simp only
  split
  · exact mirror_deliverAll h _
  · exact mirror_deliverAll h _

/-- The lifecycle update keeps it. -/
theorem mirror_updateLifecycle (h : Mirror sys.runtime) : Mirror (updateLifecycle sys).runtime := by
  have hearly : Mirror (publishOutputs (dropWindows (dropOutputs sys))).runtime :=
    mirror_publishOutputs (mirror_deliverAll (mirror_deliverAll h _) _)
  unfold updateLifecycle
  simp only
  split
  · exact hearly
  · exact mirror_deliverAll (mirror_deliverAll (mirror_deliverAll hearly _) _) _

/-- Cancelling the operation keeps it. -/
theorem mirror_cancelOperation (h : Mirror sys.runtime) : Mirror (cancelOperation sys).runtime := by
  have hcancelled := mirror_deliver h (.event 24 sys.bridge.pointerSeat 0 0 0 0)
  rcases cancelOperation_cases sys with heq | heq <;> rw [heq]
  · exact hcancelled
  · exact h

theorem mirror_beforeQueue (h : Mirror sys.runtime) : Mirror (beforeQueue sys).runtime := by
  have hlock : Mirror (publishLock (sys.onBridge fun s => { s with phase := .manage })).runtime := by
    unfold publishLock
    split
    · exact mirror_deliver h _
    · exact h
  exact mirror_cancelOperation (mirror_updateLifecycle hlock)

/-- Draining the queue keeps it. -/
theorem mirror_drainInput (h : Mirror sys.runtime) : Mirror (drainInput sys).runtime := by
  have hevent : ∀ (t : System) (event : Input), Mirror t.runtime →
      Mirror (drainEvent t event).runtime := by
    intro t event ht
    unfold drainEvent
    split
    · exact ht
    · exact mirror_deliver ht _
  exact List.foldlRecOn (motive := fun t => Mirror t.runtime) sys.bridge.input drainEvent h
    fun t ht event _ => hevent t event ht

/-- Publishing the drag keeps it. -/
theorem mirror_publishDrag (h : Mirror sys.runtime) : Mirror (publishDrag sys).runtime := by
  rcases publishDrag_cases sys with heq | ⟨id, events, -, heq⟩ <;> rw [heq]
  · exact h
  · exact mirror_deliverAll h events

/-- Effects may replace the configuration. -/
theorem mirror_execute (h : Mirror sys.runtime) (effect : Effect) :
    Mirror (execute sys effect).runtime := by
  cases effect with
  | reloadConfig =>
      simp only [execute, reload]
      split
      · exact { h with }
      · next cfg hcfg =>
        obtain ⟨hvalid, hsame⟩ := of_decide_eq_true (Option.filter_eq_some_iff.mp hcfg).2
        exact { h with reachable := h.reachable.reload hvalid hsame }
  | _ => exact { h with }

/-- Event 7 is about no window and no output. -/
theorem mirror_manage (h : Mirror sys.runtime) : Mirror (manage sys).runtime := by
  have hseven := mirror_deliver h (.event 7 0 0 0 0 0)
  refine manage_induction (P := fun t => Mirror t.runtime) ?_
    fun t effect ht => mirror_execute ht effect
  exact { hseven with }

/-- The end of a manage transaction keeps it. -/
theorem mirror_finishManage (h : Mirror sys.runtime) : Mirror (finishManage sys).runtime := by
  have hcancel : Mirror (sys.onBridge fun s => { s with pointerCancelBatch := false }).runtime := h
  unfold finishManage
  simp only
  split
  · exact h
  · exact mirror_manage hcancel

/-- A manage transaction keeps it. -/
theorem mirror_runManage (h : Mirror sys.runtime) : Mirror (runManage sys).runtime := by
  rw [runManage_eq]
  exact mirror_finishManage (mirror_publishDrag (mirror_drainInput (mirror_beforeQueue h)))

theorem mirror_managerManageStart (h : Mirror sys.runtime) :
    Mirror (managerManageStart sys).runtime := by
  rcases managerManageStart_cases sys with ⟨-, heq⟩ | ⟨message, -, heq⟩ | ⟨-, heq⟩ <;> rw [heq]
  · exact h
  · exact h
  · exact mirror_runManage h

/-- A render callback keeps it. -/
theorem mirror_managerRenderStart (h : Mirror sys.runtime) :
    Mirror (managerRenderStart sys).runtime := by
  rcases managerRenderStart_cases sys with ⟨-, heq⟩ | ⟨message, -, heq⟩ | ⟨-, heq⟩ <;> rw [heq]
  · exact h
  · exact h
  · exact mirror_deliver (mirror_deliverAll h (sizeEvents sys.bridge.windows)) (.event 8 0 0 0 0 0)

end Mirrored

/-! ## Failures stay -/

/-- Draining forgets no failure. -/
theorem failed_drainInput {sys : System} (h : sys.bridge.failed = true) :
    (drainInput sys).bridge.failed = true :=
  drainEvents_induction (P := fun s => s.failed = true) _ h fun _ _ hs => hs

/-- Publishing the drag forgets none. -/
theorem failed_publishDrag {sys : System} (h : sys.bridge.failed = true) :
    (publishDrag sys).bridge.failed = true := by
  rcases publishDrag_cases sys with heq | ⟨id, events, -, heq⟩ <;> rw [heq]
  · exact h
  · exact h

/-- Nor does the end of a manage transaction. -/
theorem failed_finishManage {sys : System} (h : sys.bridge.failed = true) :
    (finishManage sys).bridge.failed = true := by
  have hfinish := (quiet_finish quiet_manageFinish { sys.bridge with pointerCancelBatch := false }).failed h
  unfold finishManage
  simp only
  split
  · exact hfinish
  · next hf => exact absurd h hf

/-- A sequence without failure reaches the policy. -/
theorem finishManage_of_succeeds {sys : System} (hf : (finishManage sys).bridge.failed = false) :
    let managed := manage (sys.onBridge fun s => { s with pointerCancelBatch := false })
    managed.bridge.failed = false ∧ finishManage sys = managed.onBridge fun s =>
      sendStop { (if s.failed then s
        else { send [.manageFinish] s with managed := true, awaitingRender := true }) with
          phase := .idle } := by
  intro managed
  have hstart : ¬(sys.onBridge fun s => { s with pointerCancelBatch := false }).bridge.failed = true :=
    Bool.eq_false_iff.mp (not_failed_of_step failed_finishManage hf)
  have heq : finishManage sys = managed.onBridge fun s => sendStop { (if s.failed then s
      else { send [.manageFinish] s with managed := true, awaitingRender := true }) with
        phase := .idle } := by
    unfold finishManage
    simp only
    rw [if_neg hstart]
  rw [heq] at hf
  exact ⟨not_failed_of_step (quiet_finish quiet_manageFinish managed.bridge).failed hf, heq⟩

/-- A transaction that did not fail had not failed before its queue. -/
theorem not_failed_beforeQueue {sys : System} (h : (runManage sys).bridge.failed = false) :
    (beforeQueue sys).bridge.failed = false := by
  rw [Bool.eq_false_iff] at h ⊢
  intro hf
  rw [runManage_eq] at h
  exact h (failed_finishManage (failed_publishDrag (failed_drainInput hf)))

/-! ## Render sequences -/

/-- The size events keep the stream. -/
theorem stream_sizeEvents {doomed : Nat → Prop} {log : List Delivered} {s : State}
    (h : Stream doomed log s) (hl : Ledger s) : Stream doomed (log ++ sizeEvents s.windows) s := by
  unfold sizeEvents
  refine h.extend (fun w life hat => ⟨life, ?_, hat⟩)
    (fun o life hat => ⟨life, run_ignored_outputs o life ?_, hat⟩) h.dirty
  · rw [List.map_eq_flatMap]
    refine run_recordUses hat List.filter_sublist hl (fun r d hd => ?_) (fun r d hd => ?_)
      fun r hr => ?_
    · exact List.mem_singleton.mp hd ▸ rfl
    · simp [List.mem_singleton.mp hd, windowRole, windowUses]
    · have hshown := (List.mem_filter.mp hr).2
      simp only [Bool.and_eq_true] at hshown
      exact hshown.1.1.2
  · exact List.forall_mem_map.mpr fun r _ => by simp [Delivered.kind]

/-- The render callback keeps the stream. -/
theorem stream_render {doomed : Nat → Prop} {sys : System}
    (h : Stream doomed sys.runtime.delivered sys.bridge) :
    Stream doomed (render sys).runtime.delivered (render sys).bridge := by
  have height : Stream doomed (sys.runtime.delivered ++ [.event 8 0 0 0 0 0]) sys.bridge :=
    stream_ignored (fun d hd => List.mem_singleton.mp hd ▸ by decide) h
  exact height.quiet (quiet_render sys)

/-- Finishing a phase keeps the stream. -/
theorem Stream.finish {doomed : Nat → Prop} {log : List Delivered} {s : State}
    (h : Stream doomed log s) {g : State → State} (hg : ∀ s, Quiet True s (g s)) :
    Stream doomed log (sendStop { (if s.failed then s else g s) with phase := .idle }) := by
  have hidle : Stream doomed log { s with phase := .idle } := h.mono rfl rfl le_rfl
  exact hidle.quiet (quiet_finish hg s)

/-- A render transaction keeps the stream. -/
theorem stream_runRender {doomed : Nat → Prop} {sys : System} (hl : Ledger sys.bridge)
    (h : Stream doomed sys.runtime.delivered sys.bridge) :
    Stream doomed (runRender sys).runtime.delivered (runRender sys).bridge := by
  have hphase : Stream doomed sys.runtime.delivered { sys.bridge with phase := .render } :=
    h.mono rfl rfl le_rfl
  have hsizes : Stream doomed ((sys.onBridge fun s => { s with phase := .render }).deliverAll
      (sizeEvents sys.bridge.windows)).runtime.delivered { sys.bridge with phase := .render } := by
    change Stream doomed (List.foldl Runtime.deliver _ _).delivered _
    rw [delivered_deliverAll]
    exact stream_sizeEvents hphase { hl with }
  exact (stream_render hsizes).finish quiet_renderFinish

/-! ## Every run -/

/-- What holds between two callbacks, on both sides and in the log. -/
structure Synced (doomed : Nat → Prop) (sys : System) : Prop extends Agreement sys where
  mirror : Mirror sys.runtime
  stream : sys.bridge.failed = false → Stream doomed sys.runtime.delivered sys.bridge

section Synced

variable {doomed : Nat → Prop} {sys : System}

/-- After a manage callback every open window was told. -/
theorem told_managerManageStart (h : Synced doomed sys)
    (hf : (managerManageStart sys).bridge.failed = false) :
    Told doomed (managerManageStart sys).runtime.delivered (managerManageStart sys).bridge := by
  rcases managerManageStart_cases sys with ⟨hfailed, heq⟩ | ⟨message, -, heq⟩ | ⟨hfine, heq⟩ <;>
    rw [heq] at hf ⊢
  · rw [hfailed] at hf
    contradiction
  · contradiction
  · exact told_runManage ⟨h.ledger hfine, h.stream hfine⟩ (not_failed_beforeQueue hf)

/-- A render callback keeps the stream. -/
theorem stream_managerRenderStart (h : Synced doomed sys)
    (hf : (managerRenderStart sys).bridge.failed = false) :
    Stream doomed (managerRenderStart sys).runtime.delivered (managerRenderStart sys).bridge := by
  rcases managerRenderStart_cases sys with ⟨hfailed, heq⟩ | ⟨message, -, heq⟩ | ⟨hfine, heq⟩ <;>
    rw [heq] at hf ⊢
  · exact h.stream hf
  · contradiction
  · exact stream_runRender (h.ledger hfine) (h.stream hfine)

/-- Every callback keeps log, records and policy in step. -/
theorem synced_step (sys : System) (cb : Callback) (h : Synced doomed sys) :
    Synced doomed (sys.step cb) := by
  refine step_induction ?manage ?render (fun cb => ?listen) cb
  case manage =>
    exact ⟨(level_managerManageStart h.toAgreement).toAgreement, mirror_managerManageStart h.mirror,
      fun hf => (told_managerManageStart h hf).stream⟩
  case render =>
    exact ⟨agreement_managerRenderStart h.toAgreement, mirror_managerRenderStart h.mirror,
      stream_managerRenderStart h⟩
  case listen =>
    exact ⟨h.toAgreement.stage (stage_listen cb sys), h.mirror, fun hf =>
      stream_listen (h.stream (not_failed_of_step (failed_listen cb _) hf)) hf⟩

/-- So does every run. -/
theorem synced_runSystem (h : Synced doomed sys) (cbs : List Callback) :
    Synced doomed (runSystem cbs sys) := runSystem_induction synced_step h cbs

end Synced

/-- The first policy mirrors the empty log. -/
theorem mirror_initial {cfg : Config} (h : validateConfig cfg = .ok ())
    (loads : List (Option Config)) (decode : List UInt8 → String) :
    Mirror (initialSystem cfg loads decode).runtime := by
  have hempty : ∀ wid : WindowId, wid ∉ (initialPolicy cfg).windowSet.windows := fun wid hm => by
    have hmeta := ((managed_initialPolicy h).metadata wid).mpr hm
    simp [initialPolicy] at hmeta
  refine ⟨Reachable.initial h, fun w life hrun => ?_, fun o life hrun => ?_⟩
  · obtain rfl : Lifespan.unborn = life := Option.some.inj hrun
    exact iff_of_false (hempty w) fun hlife => absurd hlife.2.symm Lifespan.alive_ne_unborn
  · obtain rfl : Lifespan.unborn = life := Option.some.inj hrun
    exact Std.ExtTreeMap.getElem?_empty

/-- The empty log fits the empty records. -/
theorem stream_initial : Stream (fun _ => False) [] {} := by
  have hwindow : ∀ {P : Window → Prop}, ∀ r ∈ ([] : List Window), P r :=
    fun _ hr => absurd hr List.not_mem_nil
  have houtput : ∀ {P : Output → Prop}, ∀ r ∈ ([] : List Output), P r :=
    fun _ hr => absurd hr List.not_mem_nil
  refine ⟨fun w => ⟨.unborn, rfl, ?_⟩, fun o => ⟨.unborn, rfl, ?_⟩, houtput⟩
  · exact ⟨hwindow, fun _ => Lifespan.alive_ne_unborn.symm, fun _ => rfl, False.elim⟩
  · exact ⟨houtput, houtput, fun _ => rfl, fun _ => rfl⟩

/-- The initial system is in step. -/
theorem synced_initial {cfg : Config} (h : validateConfig cfg = .ok ())
    (loads : List (Option Config)) (decode : List UInt8 → String) :
    Synced (fun _ => False) (initialSystem cfg loads decode) where
  toAgreement := agreement_initial h loads decode
  mirror := mirror_initial h loads decode
  stream _ := stream_initial

end XmonadWayland.Bridge
