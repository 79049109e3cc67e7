import XmonadWayland.Bridge.Agreement
import XmonadWayland.Bridge.Flow

/-!
# XmonadWayland.Bridge.Log

What a manage sequence tells Haskell, stage by stage: the lifecycle and the lock, the
queue, the motion, the hand over.  Each stage has event numbers of its own (`Tells`).
-/

namespace XmonadWayland.Bridge

/-- What Haskell is told from one state of the system to a later one. -/
def toldSince (sys sys' : System) : List Delivered :=
  sys'.runtime.delivered.drop sys.runtime.delivered.length

/-- Between the two states Haskell is told events of these kinds only. -/
def Tells (kinds : List Int) (rt rt' : Runtime) : Prop :=
  ∃ told, rt'.delivered = rt.delivered ++ told ∧ ∀ d ∈ told, d.kind ∈ kinds

/-- All that happens on the Haskell side are events of these kinds. -/
def Hears (kinds : List Int) (rt rt' : Runtime) : Prop :=
  ∃ told : List Delivered, rt' = told.foldl Runtime.deliver rt ∧ ∀ d ∈ told, d.kind ∈ kinds

namespace Hears

variable {kinds kinds' : List Int} {rt rt' rt'' : Runtime}

theorem refl (rt : Runtime) : Hears kinds rt rt := ⟨[], rfl, nofun⟩

theorem trans (h : Hears kinds rt rt') (h' : Hears kinds rt' rt'') : Hears kinds rt rt'' := by
  obtain ⟨told, rfl, hkinds⟩ := h
  obtain ⟨told', rfl, hkinds'⟩ := h'
  exact ⟨told ++ told', (List.foldl_append ..).symm,
    fun d hd => (List.mem_append.mp hd).elim (hkinds d) (hkinds' d)⟩

/-- More kinds may be heard. -/
theorem mono (h : Hears kinds rt rt') (hsub : kinds ⊆ kinds') : Hears kinds' rt rt' := by
  obtain ⟨told, heq, hkinds⟩ := h
  exact ⟨told, heq, fun d hd => hsub (hkinds d hd)⟩

/-- A list of events of these kinds is heard. -/
theorem deliverAll {ds : List Delivered} (h : ∀ d ∈ ds, d.kind ∈ kinds) (rt : Runtime) :
    Hears kinds rt (ds.foldl Runtime.deliver rt) := ⟨ds, rfl, h⟩

/-- An event of one of these kinds is heard. -/
theorem deliver {d : Delivered} (h : d.kind ∈ kinds) (rt : Runtime) :
    Hears kinds rt (rt.deliver d) := deliverAll (List.forall_mem_singleton.mpr h) rt

/-- What is heard is told. -/
theorem tells (h : Hears kinds rt rt') : Tells kinds rt rt' := by
  obtain ⟨told, rfl, hkinds⟩ := h
  exact ⟨told, delivered_deliverAll told rt, hkinds⟩

/-- What every event of these kinds keeps. -/
theorem induction {P : Runtime → Prop} (h : Hears kinds rt rt') (hrt : P rt)
    (hstep : ∀ rt d, d.kind ∈ kinds → P rt → P (rt.deliver d)) : P rt' := by
  obtain ⟨told, rfl, hkinds⟩ := h
  exact List.foldlRecOn told Runtime.deliver hrt fun rt hrt d hd => hstep rt d (hkinds d hd) hrt

end Hears

/-- The events of the stages before the queue, without the lock. -/
def lifecycleKinds : List Int := [1, 2, 3, 4, 11, 12, 13, 14, 24, 26, 27]

variable {sys : System}

/-- Publishing outputs delivers events of the lifecycle. -/
theorem hears_publishOutputs (sys : System) :
    Hears lifecycleKinds sys.runtime (publishOutputs sys).runtime := by
  have hevents : ∀ d ∈ (sys.bridge.outputs.takeWhile Output.complete).flatMap Output.events,
      d.kind ∈ lifecycleKinds := by
    intro d hd
    obtain ⟨output, -, hd⟩ := List.mem_flatMap.mp hd
    rcases List.mem_append.mp hd with hd | hd <;> split at hd
    · simp [List.mem_singleton.mp hd, Delivered.kind, lifecycleKinds]
    · contradiction
    · simp [List.mem_singleton.mp hd, Delivered.kind, lifecycleKinds]
    · contradiction
  unfold publishOutputs
  simp only
  split
  · exact Hears.deliverAll hevents sys.runtime
  · exact Hears.deliverAll hevents sys.runtime

/-- One event for each record of a list. -/
theorem hears_records {α : Type} {kinds : List Int} {kind : Int} (hkind : kind ∈ kinds)
    (xs : List α) (ident : α → Nat) (rt : Runtime) :
    Hears kinds rt ((xs.map fun x => .event kind (ident x) 0 0 0 0).foldl Runtime.deliver rt) :=
  Hears.deliverAll (List.forall_mem_map.mpr fun _ _ => hkind) rt

/-- A render sequence publishes sizes only. -/
theorem hears_sizeEvents (windows : List Window) (rt : Runtime) :
    Hears [25] rt ((sizeEvents windows).foldl Runtime.deliver rt) :=
  Hears.deliverAll (List.forall_mem_map.mpr fun _ _ => List.mem_singleton_self (25 : Int)) rt

/-- So does publishing metadata. -/
theorem hears_publishMetadata (sys : System) :
    Hears lifecycleKinds sys.runtime (publishMetadata sys).runtime := by
  refine Hears.deliverAll (fun d hd => ?_) sys.runtime
  obtain ⟨w, -, hd⟩ := List.mem_flatMap.mp hd
  have hsub : ([11, 12, 26, 27, 13] : List Int) ⊆ lifecycleKinds := by decide
  exact hsub (kind_metadataEvents w d hd)

/-- So does the lifecycle update. -/
theorem hears_updateLifecycle (sys : System) :
    Hears lifecycleKinds sys.runtime (updateLifecycle sys).runtime := by
  have houtputs : Hears lifecycleKinds sys.runtime (dropOutputs sys).runtime :=
    hears_records (by decide) _ Output.id _
  have hwindows : ∀ t : System, Hears lifecycleKinds t.runtime (dropWindows t).runtime :=
    fun t => hears_records (by decide) _ Window.id _
  have hannounce : ∀ t : System, Hears lifecycleKinds t.runtime (announceWindows t).runtime :=
    fun t => hears_records (by decide) _ Window.id _
  have hseats : ∀ t : System, Hears lifecycleKinds t.runtime (dropSeats t).runtime :=
    fun t => hears_records (by decide) _ Seat.id _
  have hearly := (houtputs.trans (hwindows _)).trans (hears_publishOutputs _)
  unfold updateLifecycle
  simp only
  split
  · exact hearly
  · exact ((hearly.trans (hannounce _)).trans (hears_publishMetadata _)).trans (hseats _)

/-- Publishing the lock delivers events 9 and 10. -/
theorem hears_publishLock (sys : System) :
    Hears [9, 10] sys.runtime (publishLock sys).runtime := by
  unfold publishLock
  split
  · refine Hears.deliver ?_ sys.runtime
    change (if sys.bridge.locked then (9 : Int) else 10) ∈ [9, 10]
    split <;> decide
  · exact Hears.refl _

/-- A cancel delivers an event of the lifecycle. -/
theorem hears_cancelOperation (sys : System) :
    Hears lifecycleKinds sys.runtime (cancelOperation sys).runtime := by
  have hcancel : ∀ id, (Delivered.event 24 id 0 0 0 0).kind ∈ lifecycleKinds :=
    fun _ => show (24 : Int) ∈ lifecycleKinds by decide
  rcases cancelOperation_cases sys with h | h <;> rw [h]
  · exact Hears.deliver (hcancel sys.bridge.pointerSeat) sys.runtime
  · exact Hears.refl _

/-- What precedes the queue delivers lock and lifecycle events. -/
theorem hears_beforeQueue (sys : System) :
    Hears ([9, 10] ++ lifecycleKinds) sys.runtime (beforeQueue sys).runtime :=
  (((hears_publishLock (sys.onBridge fun s => { s with phase := .manage })).mono
    (List.subset_append_left _ _)).trans ((hears_updateLifecycle _).mono
      (List.subset_append_right _ _))).trans ((hears_cancelOperation _).mono
        (List.subset_append_right _ _))

/-- Queued inputs have the codes 5, 20 and 21. -/
theorem kind_code (kind : InputKind) : kind.code ∈ ([5, 20, 21] : List Int) := by
  cases kind <;> decide

/-- Draining one input delivers an event of its code. -/
theorem hears_drainEvent (sys : System) (event : Input) :
    Hears [5, 20, 21] sys.runtime (drainEvent sys event).runtime := by
  unfold drainEvent
  split
  · exact Hears.refl _
  · exact Hears.deliver (kind_code _) sys.runtime

/-- Draining the queue delivers events of these codes. -/
theorem hears_drainInput (sys : System) :
    Hears [5, 20, 21] sys.runtime (drainInput sys).runtime :=
  List.foldlRecOn (motive := fun t => Hears [5, 20, 21] sys.runtime t.runtime) sys.bridge.input
    drainEvent (Hears.refl _) fun t ht event _ => ht.trans (hears_drainEvent t event)

/-- Publishing the drag delivers events 22 and 23. -/
theorem hears_publishDrag (sys : System) :
    Hears [22, 23] sys.runtime (publishDrag sys).runtime := by
  rcases publishDrag_cases sys with heq | ⟨id, events, hkinds, heq⟩ <;> rw [heq]
  · exact Hears.refl _
  · refine Hears.deliverAll (fun d hd => ?_) sys.runtime
    rcases hkinds d hd with hkind | hkind <;> simp [hkind]

/-- The manage callback tells event 7. -/
theorem tells_manage (sys : System) : Tells [7] sys.runtime (manage sys).runtime := by
  refine manage_induction (P := fun t => Tells [7] sys.runtime t.runtime) ?_
    fun t effect ht => ?_
  · exact ⟨[.event 7 0 0 0 0 0], rfl, List.forall_mem_singleton.mpr (by decide)⟩
  · obtain ⟨told, heq, hkinds⟩ := ht
    exact ⟨told, (quiet_execute t effect).2.trans heq, hkinds⟩

/-- So does the end of a manage transaction. -/
theorem tells_finishManage (sys : System) :
    Tells [7] sys.runtime (finishManage sys).runtime := by
  unfold finishManage
  simp only
  split
  · exact ⟨[], (List.append_nil _).symm, nofun⟩
  · exact tells_manage (sys.onBridge fun s => { s with pointerCancelBatch := false })

/-! ## Failures and the policy -/

/-- A manage sequence would run. -/
def Starts (s : State) : Prop :=
  s.failed = false ∧ s.phase = .idle ∧ s.awaitingRender = false ∧ s.xkb = true

/-- A callback that starts a transaction runs it. -/
theorem managerManageStart_of_starts {sys : System} (h : Starts sys.bridge) :
    managerManageStart sys = runManage sys := by
  obtain ⟨hfailed, hphase, hrender, hxkb⟩ := h
  simp [managerManageStart, hfailed, hphase, hrender, hxkb]

/-- A failed bridge stays so. -/
theorem failed_step {sys : System} (h : sys.bridge.failed = true) (cb : Callback) :
    (sys.step cb).bridge.failed = true := by
  have hmanage : (managerManageStart sys).bridge.failed = true := by
    rwa [show managerManageStart sys = sys from if_pos h]
  have hrender : (managerRenderStart sys).bridge.failed = true := by
    rwa [show managerRenderStart sys = sys from if_pos h]
  exact step_induction (P := fun sys => sys.bridge.failed = true) hmanage hrender
    (fun cb => failed_listen cb sys.bridge h) cb

/-- A run that did not fail had not failed before. -/
theorem not_failed_runSystem {sys : System} {cbs : List Callback}
    (h : (runSystem cbs sys).bridge.failed = false) : sys.bridge.failed = false :=
  not_failed_of_step (fun hf => runSystem_induction (P := fun sys => sys.bridge.failed = true)
    (fun _ cb hf => failed_step hf cb) hf cbs) h

/-- The policy moves on with every event it understands. -/
theorem policy_deliver {rt : Runtime} {d : Delivered} {ev : Event} (h : rt.decode d = some ev) :
    (rt.deliver d).runtimePolicy = step rt.runtimeConfig rt.runtimePolicy ev := by
  rcases (deliver_cases rt d).2.2 with ⟨hnone, -⟩ | ⟨ev', hsome, heq⟩
  · exact absurd (hnone.symm.trans h) nofun
  · obtain rfl := Option.some.inj (hsome.symm.trans h)
    exact heq

/-- Executing effects does not touch the policy. -/
theorem policy_execute (sys : System) (effect : Effect) :
    (execute sys effect).runtime.runtimePolicy = sys.runtime.runtimePolicy := by
  cases effect with
  | reloadConfig =>
      simp only [execute, reload]
      split <;> rfl
  | _ => rfl

/-- The manage callback leaves the policy. -/
theorem policy_manage (sys : System) :
    (manage sys).runtime.runtimePolicy = sys.runtime.runtimePolicy :=
  manage_induction (P := fun t => t.runtime.runtimePolicy = sys.runtime.runtimePolicy) rfl
    fun t effect ht => (policy_execute t effect).trans ht

/-- So does the end of a manage transaction. -/
theorem policy_finishManage (sys : System) :
    (finishManage sys).runtime.runtimePolicy = sys.runtime.runtimePolicy := by
  unfold finishManage
  simp only
  split
  · rfl
  · exact policy_manage (sys.onBridge fun s => { s with pointerCancelBatch := false })

end XmonadWayland.Bridge
