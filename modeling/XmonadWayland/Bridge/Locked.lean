import XmonadWayland.Bridge.Guard
import XmonadWayland.Bridge.Log
import XmonadWayland.Bridge.Sync

/-!
# XmonadWayland.Bridge.Locked

A locked session.  The lock is published first in a manage sequence, so the policy is
handed over in the lock state of the bridge (`lock_handedOver`).  In a locked sequence the
queue is thrown away and no request reaches a client; when it finishes, the focus is
cleared, the pointer operation has ended and the bindings are off.
-/

namespace XmonadWayland.Bridge

/-! ## The lock of the policy -/

theorem decode_lock {rt : Runtime} {d : Delivered} {ev : Event} (h : rt.decode d = some ev)
    (hd : d.kind ≠ 9 ∧ d.kind ≠ 10) : ev ≠ .locked ∧ ev ≠ .unlocked := by
  rcases decode_cases h with ⟨action, rfl⟩ | ⟨kind, ident, a, b, c, e, rfl, hev⟩
    | ⟨ident, text, rfl | rfl⟩
  · exact ⟨nofun, nofun⟩
  · have hkind : ¬(kind = 9 ∨ kind = 10) := not_or.mpr hd
    exact ⟨fun heq => hkind (decodeEvent_lock hev (Or.inl heq)),
      fun heq => hkind (decodeEvent_lock hev (Or.inr heq))⟩
  · exact ⟨nofun, nofun⟩
  · exact ⟨nofun, nofun⟩

/-- Finishing an event does not change the lock. -/
theorem sessionLocked_step (cfg : Config) (p : Policy) (ev : Event) :
    (step cfg p ev).sessionLocked
      = (handleOrdinaryEvent cfg ev (preparePointerEvent ev p)).1.sessionLocked :=
  (frame_finish (preparePointerEvent ev p) _).sessionLocked

theorem sessionLocked_deliver {rt : Runtime} {d : Delivered}
    (hr : Reachable rt.runtimeConfig rt.runtimePolicy) (hd : d.kind ≠ 9 ∧ d.kind ≠ 10) :
    (rt.deliver d).runtimePolicy.sessionLocked = rt.runtimePolicy.sessionLocked := by
  obtain ⟨-, -, ⟨-, hp⟩ | ⟨ev, hev, hp⟩⟩ := deliver_cases rt d <;> rw [hp]
  have hprep := frame_preparePointerEvent ev rt.runtimePolicy
  have hs := hprep.windowSet ▸ (managed_of_reachable hr).wellFormed
  rw [sessionLocked_step, sessionLocked_handleOrdinaryEvent _ hs (decode_lock hev hd)]
  exact hprep.sessionLocked

theorem sessionLocked_hears {kinds : List Int} {rt rt' : Runtime} (h : Hears kinds rt rt')
    (hkinds : 9 ∉ kinds ∧ 10 ∉ kinds) (hr : Reachable rt.runtimeConfig rt.runtimePolicy) :
    rt'.runtimePolicy.sessionLocked = rt.runtimePolicy.sessionLocked := by
  refine (h.induction (P := fun t => Reachable t.runtimeConfig t.runtimePolicy
    ∧ t.runtimePolicy.sessionLocked = rt.runtimePolicy.sessionLocked) ⟨hr, rfl⟩
    fun t d hd ⟨ht, hsame⟩ => ⟨reachable_deliver ht d, ?_⟩).2
  have hne : d.kind ≠ 9 ∧ d.kind ≠ 10 :=
    ⟨fun he => hkinds.1 (he ▸ hd), fun he => hkinds.2 (he ▸ hd)⟩
  exact (sessionLocked_deliver ht hne).trans hsame

theorem reachable_hears {kinds : List Int} {rt rt' : Runtime} (h : Hears kinds rt rt')
    (hr : Reachable rt.runtimeConfig rt.runtimePolicy) :
    Reachable rt'.runtimeConfig rt'.runtimePolicy :=
  h.induction (P := fun t => Reachable t.runtimeConfig t.runtimePolicy) hr
    fun _ d _ ht => reachable_deliver ht d

/-! ## The lock in step -/

/-- Unless a change is still to be published, policy and bridge agree about the lock. -/
def LockInStep (sys : System) : Prop :=
  sys.bridge.lockChanged = false → sys.runtime.runtimePolicy.sessionLocked = sys.bridge.locked

theorem lock_publishLock {sys : System} (h : LockInStep sys) :
    (publishLock sys).runtime.runtimePolicy.sessionLocked = sys.bridge.locked
      ∧ (publishLock sys).bridge.locked = sys.bridge.locked := by
  unfold publishLock
  split
  · refine ⟨?_, rfl⟩
    cases hlock : sys.bridge.locked with
    | true =>
        have hdecode : sys.runtime.decode (.event 9 0 0 0 0 0) = some .locked := rfl
        exact (congrArg Policy.sessionLocked (policy_deliver hdecode)).trans
          (sessionLocked_step _ _ .locked)
    | false =>
        have hdecode : sys.runtime.decode (.event 10 0 0 0 0 0) = some .unlocked := rfl
        exact (congrArg Policy.sessionLocked (policy_deliver hdecode)).trans
          (sessionLocked_step _ _ .unlocked)
  · next hchanged => exact ⟨h (Bool.eq_false_iff.mpr hchanged), rfl⟩

/-! ## The stages -/

theorem guarded_publishOutputs (sys : System) :
    Guarded sys.bridge (publishOutputs sys).bridge := by
  unfold publishOutputs
  simp only
  split
  · exact Guarded.fields rfl rfl rfl
  · exact Guarded.fields rfl rfl rfl

theorem guarded_announceWindows (sys : System) :
    Guarded sys.bridge (announceWindows sys).bridge := by
  refine ⟨rfl, rfl, fun _ => ⟨_, rfl, fun r hr => ?_⟩⟩
  obtain ⟨w, -, hr⟩ := List.mem_flatMap.mp hr
  unfold Window.configureRequests at hr
  split at hr
  · contradiction
  · simp only [List.mem_cons, List.not_mem_nil, or_false] at hr
    rcases hr with rfl | rfl | rfl | rfl <;> rfl

theorem guarded_configurePrimary (cfg : Config) (s : State) :
    Guarded s (configurePrimary cfg s) := by
  unfold configurePrimary
  split
  · split
    · exact Guarded.refl s
    · exact guarded_configureSeat cfg _ s
  · exact Guarded.refl s

theorem guarded_updateLifecycle (sys : System) :
    Guarded sys.bridge (updateLifecycle sys).bridge := by
  have houtputs : Guarded sys.bridge (dropOutputs sys).bridge :=
    ⟨rfl, rfl, fun _ => ⟨_, rfl, List.forall_mem_map.mpr fun _ _ => rfl⟩⟩
  have hwindows : ∀ t : System, Guarded t.bridge (dropWindows t).bridge := fun t =>
    ⟨rfl, rfl, fun _ => ⟨_, rfl, List.forall_mem_map.mpr fun _ _ => rfl⟩⟩
  have hmetadata : ∀ t : System, Guarded t.bridge (publishMetadata t).bridge := fun t =>
    Guarded.fields rfl rfl rfl
  have hseats : ∀ t : System, Guarded t.bridge (dropSeats t).bridge := fun t =>
    ⟨rfl, rfl, fun _ => ⟨_, rfl, List.forall_mem_map.mpr fun _ _ => rfl⟩⟩
  have hearly := (houtputs.trans (hwindows _)).trans (guarded_publishOutputs _)
  unfold updateLifecycle
  simp only
  split
  · exact hearly
  · exact (((hearly.trans (guarded_announceWindows _)).trans (hmetadata _)).trans
      (hseats _)).trans ((guarded_configurePrimary _ _).trans (guarded_xwSetBindingMode _ _))

/-- The stages before the queue publish the lock and are guarded otherwise. -/
theorem guarded_modifyPrimary (f : Seat → Seat) (s : State) : Guarded s (modifyPrimary f s) := by
  unfold modifyPrimary
  split
  · exact Guarded.fields rfl rfl rfl
  · exact Guarded.refl s

theorem guarded_beforeQueue (sys : System) :
    Guarded { sys.bridge with lockChanged := false } (beforeQueue sys).bridge := by
  have hlock : Guarded { sys.bridge with lockChanged := false }
      (publishLock (sys.onBridge fun s => { s with phase := .manage })).bridge := by
    unfold publishLock
    split
    · exact Guarded.fields rfl rfl rfl
    · next hchanged => exact Guarded.fields rfl (Bool.eq_false_iff.mpr hchanged) rfl
  have hcancelled : Guarded { sys.bridge with lockChanged := false } (cancelOperation
      (updateLifecycle (publishLock (sys.onBridge fun s => { s with phase := .manage })))).bridge := by
    rw [bridge_cancelOperation]
    exact hlock.trans (guarded_updateLifecycle _)
  exact hcancelled.trans (guarded_modifyPrimary _ _)

theorem guarded_drainInput (sys : System) : Guarded sys.bridge (drainInput sys).bridge := by
  have hfold : Guarded sys.bridge (sys.bridge.input.foldl drainEvent sys).bridge :=
    drainEvents_induction _ (Guarded.refl _) fun _ _ h => h.trans (Guarded.fields rfl rfl rfl)
  exact hfold.trans (Guarded.fields rfl rfl rfl)

theorem guarded_publishDrag (sys : System) : Guarded sys.bridge (publishDrag sys).bridge := by
  rcases publishDrag_cases sys with heq | ⟨id, events, -, heq⟩ <;> rw [heq]
  · exact Guarded.refl _
  · exact Guarded.fields rfl rfl rfl

theorem guarded_handedOver (sys : System) :
    Guarded { sys.bridge with lockChanged := false } (handedOver sys).bridge :=
  ((guarded_beforeQueue sys).trans (guarded_drainInput _)).trans (guarded_publishDrag _)

/-- The policy is handed over in the lock state of the bridge. -/
theorem lock_handedOver {sys : System} (h : LockInStep sys)
    (hr : Reachable sys.runtime.runtimeConfig sys.runtime.runtimePolicy) :
    (handedOver sys).runtime.runtimePolicy.sessionLocked = sys.bridge.locked := by
  have hstart : LockInStep (sys.onBridge fun s => { s with phase := .manage }) := h
  obtain ⟨hlock, -⟩ := lock_publishLock hstart
  have hpublished := reachable_hears (hears_publishLock (sys.onBridge fun s =>
    { s with phase := .manage })) hr
  have hbefore : Hears lifecycleKinds (publishLock (sys.onBridge fun s =>
      { s with phase := .manage })).runtime (beforeQueue sys).runtime :=
    (hears_updateLifecycle _).trans (hears_cancelOperation _)
  have hqueued := reachable_hears hbefore hpublished
  have hdrained := reachable_hears (hears_drainInput (beforeQueue sys)) hqueued
  exact (((sessionLocked_hears (hears_publishDrag _) (by decide) hdrained).trans
    (sessionLocked_hears (hears_drainInput _) (by decide) hqueued)).trans
    (sessionLocked_hears hbefore (by decide) hpublished)).trans hlock

/-! ## The hand over -/

theorem guarded_applyPolicy (p : Policy) (s : State) : Guarded s (applyPolicy p s) := by
  rw [applyPolicy_eq]
  exact (guarded_xwSetBindingMode _ s).trans ((leaves_placed p _).trans (leaves_xwFocus _ _)).toGuarded

theorem guarded_execute (sys : System) (effect : Effect) :
    Guarded sys.bridge (execute sys effect).bridge := by
  cases effect with
  | closeWindow wid => exact (leaves_xwClose wid _).toGuarded
  | stopRuntime => exact (leaves_xwStop _).toGuarded
  | reloadConfig =>
      simp only [execute, reload]
      split
      · exact Guarded.refl _
      · exact (guarded_xwResetBindings _ _).trans (guarded_xwSetBindingMode _ _)
  | _ => exact Guarded.refl _

theorem guarded_manage (sys : System) : Guarded sys.bridge (manage sys).bridge :=
  manage_induction (P := fun t => Guarded sys.bridge t.bridge) (guarded_applyPolicy _ _)
    fun t effect ht => ht.trans (guarded_execute t effect)

theorem leaves_manageFinish (s : State) : Leaves s
    { send [.manageFinish] s with managed := true, awaitingRender := true } := by
  have hsent : Leaves s (send [.manageFinish] s) := Leaves.send (by simp [Request.needsUnlocked]) s
  exact hsent.trans (Leaves.fields rfl rfl rfl rfl rfl)

theorem guarded_finishManage (sys : System) : Guarded sys.bridge (finishManage sys).bridge := by
  have hcancel : Guarded sys.bridge { sys.bridge with pointerCancelBatch := false } :=
    Guarded.fields rfl rfl rfl
  unfold finishManage
  simp only
  split
  · exact hcancel.trans (leaves_finish leaves_manageFinish _).toGuarded
  · exact (hcancel.trans (guarded_manage (sys.onBridge fun s =>
      { s with pointerCancelBatch := false }))).trans
      (leaves_finish leaves_manageFinish _).toGuarded

theorem guarded_runManage (sys : System) :
    Guarded { sys.bridge with lockChanged := false } (runManage sys).bridge :=
  (guarded_handedOver sys).trans (guarded_finishManage (handedOver sys))

/-! ## Every run -/

theorem lock_listen (cb : Callback) (s : State) : (listen cb s).lockChanged = true
    ∨ (listen cb s).lockChanged = s.lockChanged ∧ (listen cb s).locked = s.locked := by
  by_cases hcb : cb = .managerSeat
  · subst hcb
    have hnew : (newId s).2.lockChanged = s.lockChanged ∧ (newId s).2.locked = s.locked := by
      rcases newId_cases s with heq | heq <;> rw [heq] <;> exact ⟨rfl, rfl⟩
    have hattach := (heard_attachLayerSeat (newId s).1 { (newId s).2 with
      seats := (newId s).2.seats ++ [{ id := (newId s).1 }]
      primary := if (newId s).2.primary = none then some (newId s).1 else (newId s).2.primary }).lock
    exact hattach.imp_right fun ⟨hc, hl⟩ => ⟨hc.trans hnew.1, hl.trans hnew.2⟩
  · exact (heard_listen hcb s).lock

theorem lockInStep_listen {sys : System} (h : LockInStep sys) (cb : Callback) :
    LockInStep (sys.onBridge (listen cb)) := by
  intro hchanged
  rcases lock_listen cb sys.bridge with hc | ⟨hc, hl⟩
  · exact absurd (hchanged.symm.trans hc) nofun
  · exact (h (hc.symm.trans hchanged)).trans hl.symm

theorem lock_runManage {sys : System} (h : LockInStep sys)
    (hr : Reachable sys.runtime.runtimeConfig sys.runtime.runtimePolicy) :
    (runManage sys).runtime.runtimePolicy.sessionLocked = sys.bridge.locked
      ∧ (runManage sys).bridge.locked = sys.bridge.locked := by
  refine ⟨?_, (guarded_runManage sys).locked⟩
  rw [runManage_handedOver, policy_finishManage]
  exact lock_handedOver h hr

theorem lockInStep_managerManageStart {sys : System} (h : LockInStep sys)
    (hr : Reachable sys.runtime.runtimeConfig sys.runtime.runtimePolicy) :
    LockInStep (managerManageStart sys) := by
  rcases managerManageStart_cases sys with ⟨-, heq⟩ | ⟨message, -, heq⟩ | ⟨-, heq⟩ <;> rw [heq]
  · exact h
  · exact h
  · obtain ⟨hsession, hlocked⟩ := lock_runManage h hr
    exact fun _ => hsession.trans hlocked.symm

theorem lockInStep_managerRenderStart {sys : System} (h : LockInStep sys)
    (hr : Reachable sys.runtime.runtimeConfig sys.runtime.runtimePolicy) :
    LockInStep (managerRenderStart sys) := by
  rcases managerRenderStart_cases sys with ⟨-, heq⟩ | ⟨message, -, heq⟩ | ⟨-, heq⟩ <;> rw [heq]
  · exact h
  · exact h
  · let shown := (sys.onBridge fun s => { s with phase := .render }).deliverAll
      (sizeEvents sys.bridge.windows)
    have hsizes : Hears [25] sys.runtime shown.runtime := hears_sizeEvents _ _
    have hsession : shown.runtime.runtimePolicy.sessionLocked
        = sys.runtime.runtimePolicy.sessionLocked := sessionLocked_hears hsizes (by decide) hr
    have hleft := leaves_runRender sys
    intro hchanged
    have hbefore : sys.bridge.lockChanged = false := hleft.lockChanged.symm.trans hchanged
    exact (hsession.trans (h hbefore)).trans hleft.locked.symm

theorem lockInStep_runSystem {sys : System} (hagree : Agreement sys) (h : LockInStep sys)
    (cbs : List Callback) : LockInStep (runSystem cbs sys) :=
  (runSystem_induction (P := fun sys => Agreement sys ∧ LockInStep sys)
    (fun sys cb ⟨hagree, h⟩ => ⟨agreement_step sys cb hagree,
      step_induction (lockInStep_managerManageStart h hagree.reachable)
        (lockInStep_managerRenderStart h hagree.reachable) (lockInStep_listen h) cb⟩)
    ⟨hagree, h⟩ cbs).2

/-! ## Bindings that are on -/

/-- The bindings of the primary seat are on as the mode and the lock say. -/
def Switched (mode : Nat) (s : State) : Prop :=
  ∀ seat ∈ s.seats, s.primary = some seat.id →
    (∀ binding ∈ seat.bindings, binding.enabled = (!s.locked && binding.mode = mode))
      ∧ ∀ binding ∈ seat.pointerBindings, binding.enabled = true → s.locked = false

theorem Switched.leaves {mode : Nat} {s s' : State} (h : Switched mode s) (hl : Leaves s s') :
    Switched mode s' := by
  obtain ⟨f, hf, heq⟩ := hl.seats
  intro seat' hmem hprimary
  obtain ⟨seat, hseat, rfl⟩ := List.mem_map.mp (heq ▸ hmem)
  rw [(hf seat).bindings, (hf seat).pointerBindings, hl.locked]
  exact h seat hseat (hl.primary ▸ (hf seat).id ▸ hprimary)

theorem switched_xwSetBindingMode {mode : Nat} {s : State}
    (hf : (xwSetBindingMode mode s).failed = false) : Switched mode (xwSetBindingMode mode s) := by
  unfold xwSetBindingMode at hf ⊢
  split at hf
  · contradiction
  · next hphase =>
    rw [if_neg hphase]
    simp only at hf ⊢
    split
    · next hnone =>
      intro seat hmem hprimary
      rw [primarySeat, show ({ s with bindingMode := mode } : State).primary = some seat.id from
        hprimary, Option.bind_some, List.find?_eq_none] at hnone
      exact absurd (decide_eq_true rfl) (hnone seat hmem)
    · next seat hsome =>
      intro seat' hmem hprimary
      obtain ⟨before, -, rfl⟩ := List.mem_map.mp hmem
      have hsame : before.id = seat.id := by
        have hid := Option.some.inj ((primarySeat_some hsome).1.symm.trans hprimary)
        split at hid
        · next h => exact h
        · exact hid.symm
      rw [if_pos hsame]
      refine ⟨List.forall_mem_map.mpr fun _ _ => rfl, List.forall_mem_map.mpr fun _ _ hon => ?_⟩
      have hfree : s.locked = false := by simpa using (Bool.and_eq_true_iff.mp hon).1
      exact hfree

theorem failed_xwSetPointerOperation {seatId windowId edges : Nat} {s : State}
    (h : s.failed = true) : (xwSetPointerOperation seatId windowId edges s).failed = true := by
  unfold xwSetPointerOperation
  split
  · rfl
  split
  · exact h
  split
  · split
    · rfl
    · exact (regrab_endOperation s).failed.trans h
  split
  · exact h
  split
  · split
    · exact h
    · exact (regrab_startOperation _ _ _ s).failed.trans h
  · exact h

theorem switched_applyPolicy {p : Policy} {s : State} (hf : (applyPolicy p s).failed = false) :
    Switched p.activeMode.fromEnum (applyPolicy p s) := by
  rw [applyPolicy_eq] at hf ⊢
  have hset := not_failed_of_step (quiet_pushed p _).failed hf
  have hmode := not_failed_of_step failed_xwSetPointerOperation hset
  exact (switched_xwSetBindingMode hmode).leaves ((leaves_placed p _).trans (leaves_xwFocus _ _))

/-- Effects keep the bindings as the policy's mode says. -/
theorem switched_execute {sys : System} {effect : Effect}
    (h : Switched sys.runtime.runtimePolicy.activeMode.fromEnum sys.bridge)
    (hf : (execute sys effect).bridge.failed = false) :
    Switched sys.runtime.runtimePolicy.activeMode.fromEnum (execute sys effect).bridge := by
  cases effect with
  | closeWindow wid => exact h.leaves (leaves_xwClose wid _)
  | stopRuntime => exact h.leaves (leaves_xwStop _)
  | reloadConfig =>
      simp only [execute, reload] at hf ⊢
      split at hf
      · exact h
      · exact switched_xwSetBindingMode hf
  | _ => exact h

theorem switched_manage {sys : System} (hf : (manage sys).bridge.failed = false) :
    Switched sys.runtime.runtimePolicy.activeMode.fromEnum (manage sys).bridge := by
  have hstep : ∀ (t : System) (effect : Effect),
      t.runtime.runtimePolicy = sys.runtime.runtimePolicy ∧ (t.bridge.failed = false →
        Switched sys.runtime.runtimePolicy.activeMode.fromEnum t.bridge) →
      (execute t effect).runtime.runtimePolicy = sys.runtime.runtimePolicy
        ∧ ((execute t effect).bridge.failed = false →
          Switched sys.runtime.runtimePolicy.activeMode.fromEnum (execute t effect).bridge) := by
    rintro t effect ⟨hpolicy, ht⟩
    refine ⟨(policy_execute t effect).trans hpolicy, fun hdone => ?_⟩
    have hbefore := ht (not_failed_of_step (quiet_execute t effect).1.failed hdone)
    rw [← hpolicy] at hbefore ⊢
    exact switched_execute hbefore hdone
  have hrun : (manage sys).runtime.runtimePolicy = sys.runtime.runtimePolicy
      ∧ ((manage sys).bridge.failed = false →
        Switched sys.runtime.runtimePolicy.activeMode.fromEnum (manage sys).bridge) :=
    manage_induction (P := fun t => t.runtime.runtimePolicy = sys.runtime.runtimePolicy
      ∧ (t.bridge.failed = false →
        Switched sys.runtime.runtimePolicy.activeMode.fromEnum t.bridge))
      ⟨rfl, switched_applyPolicy⟩ hstep
  exact hrun.2 hf

theorem switched_finishManage {sys : System} (hf : (finishManage sys).bridge.failed = false) :
    Switched sys.runtime.runtimePolicy.activeMode.fromEnum (finishManage sys).bridge := by
  obtain ⟨hmanaged, heq⟩ := finishManage_of_succeeds hf
  rw [heq]
  exact (switched_manage hmanaged).leaves (leaves_finish leaves_manageFinish _)

/-! ## Clearing the focus -/

theorem live_xwSetPointerOperation (seatId windowId edges : Nat) {s : State}
    (h : ∀ seat ∈ s.seats, seat.removed = false) :
    ∀ seat ∈ (xwSetPointerOperation seatId windowId edges s).seats, seat.removed = false := by
  have hregrab : ∀ {s' : State}, Regrab s s' → ∀ seat ∈ s'.seats, seat.removed = false := by
    intro s' hr
    obtain ⟨f, hf, heq⟩ := hr.seats
    rw [heq, List.forall_mem_map]
    exact fun seat hmem => ((hf seat).still trivial).1.trans (h seat hmem)
  unfold xwSetPointerOperation
  split
  · exact h
  split
  · exact h
  split
  · have hended := hregrab (regrab_endOperation s)
    split
    · exact hended
    · exact hended
  split
  · exact h
  split
  · split
    · exact h
    · exact hregrab (regrab_startOperation _ _ _ s)
  · exact h

/-- In a locked session nothing gets the focus. -/
theorem clearFocus_xwFocus {id : Nat} {s : State} (hf : (xwFocus id s).failed = false)
    (hlock : s.locked = true) (hlive : ∀ seat ∈ s.seats, seat.removed = false) {seat : Seat}
    (hsome : primarySeat s = some seat) :
    (xwFocus id s).requests = s.requests ++ [.clearFocus seat.id] := by
  have hseat := hlive seat (primarySeat_some hsome).2
  unfold xwFocus requireManage at hf ⊢
  split at hf
  · next hfailed => exact absurd (hfailed.symm.trans hf) nofun
  · next hfailed =>
    split at hf
    · contradiction
    · next hphase =>
      rw [if_neg hfailed, if_neg hphase]
      simp only [hsome, hseat, hlock]
      split
      · next h => simp at h
      · split
        · simp [send]
        · rfl

theorem primarySeat_xwFocus (id : Nat) (s : State) : primarySeat (xwFocus id s) = primarySeat s := by
  unfold xwFocus requireManage
  split
  · rfl
  split
  · rfl
  beta_reduce
  split
  · rfl
  split
  · rfl
  split
  · split <;> rfl
  · rfl

/-- Pushing a policy in a locked session clears the focus. -/
theorem clearFocus_applyPolicy {p : Policy} {s : State} (hf : (applyPolicy p s).failed = false)
    (hlock : s.locked = true) (hlive : ∀ seat ∈ s.seats, seat.removed = false) {seat : Seat}
    (hsome : primarySeat (applyPolicy p s) = some seat) :
    ∃ before, (applyPolicy p s).requests = s.requests ++ before ++ [.clearFocus seat.id] := by
  rw [applyPolicy_eq] at hf hsome ⊢
  rw [primarySeat_xwFocus] at hsome
  have hmode := quiet_xwSetBindingMode p.activeMode.fromEnum s
  have hset := live_xwSetPointerOperation (operationTriple p).1 (operationTriple p).2.1
    (operationTriple p).2.2 (hmode.live hlive)
  have hplaced := ((quiet_xwSetOutput ((focusedOutput p).getD 0) _).trans
    (Quiet.foldl (fun t placement => quiet_placementRequests placement t) (renderPolicy p) _)).live hset
  have hguard := (guarded_xwSetBindingMode p.activeMode.fromEnum s).trans
    (leaves_placed p _).toGuarded
  obtain ⟨before, hbefore, -⟩ := hguard.requests hlock
  have hfocus := clearFocus_xwFocus hf (hguard.locked.trans hlock) hplaced hsome
  exact ⟨before, hfocus.trans (by rw [hbefore])⟩

theorem Quiet.primarySeat {still : Prop} {s s' : State} (h : Quiet still s s') {seat' : Seat}
    (hsome : Bridge.primarySeat s' = some seat') :
    ∃ seat, Bridge.primarySeat s = some seat ∧ seat.id = seat'.id := by
  obtain ⟨hprimary, hmem⟩ := primarySeat_some hsome
  obtain ⟨f, hf, heq⟩ := h.seats
  obtain ⟨seat, hseat, rfl⟩ := List.mem_map.mp (heq ▸ hmem)
  have hfound : (Bridge.primarySeat s).isSome := by
    rw [Bridge.primarySeat, ← h.primary, hprimary, Option.bind_some]
    exact List.find?_isSome.mpr ⟨seat, hseat, decide_eq_true (hf seat).id.symm⟩
  obtain ⟨first, hfirst⟩ := Option.isSome_iff_exists.mp hfound
  refine ⟨first, hfirst, Option.some.inj ?_⟩
  exact (primarySeat_some hfirst).1.symm.trans (h.primary.symm.trans hprimary)

/-- The requests from one state to a later one. -/
def newRequests (s s' : State) : List Request := s'.requests.drop s.requests.length

/-- Handing over a locked session clears the focus. -/
theorem clearFocus_finishManage {sys : System} (hf : (finishManage sys).bridge.failed = false)
    (hlock : sys.bridge.locked = true) (hlive : ∀ seat ∈ sys.bridge.seats, seat.removed = false)
    {seat : Seat} (hsome : primarySeat (finishManage sys).bridge = some seat) :
    .clearFocus seat.id ∈ newRequests sys.bridge (finishManage sys).bridge := by
  obtain ⟨hmanaged, heq⟩ := finishManage_of_succeeds hf
  rw [heq] at hsome ⊢
  let start := sys.onBridge fun s => { s with pointerCancelBatch := false }
  let applied := applyPolicy sys.runtime.runtimePolicy start.bridge
  have hafter : Quiet True applied (manage start).bridge ∧ Guarded applied (manage start).bridge :=
    manage_induction (P := fun t => Quiet True applied t.bridge ∧ Guarded applied t.bridge)
      ⟨Quiet.refl _, Guarded.refl _⟩ fun t effect ht => ⟨ht.1.trans (quiet_execute t effect).1,
        ht.2.trans (guarded_execute t effect)⟩
  have hfinish := quiet_finish quiet_manageFinish (manage start).bridge
  have hleft := leaves_finish leaves_manageFinish (manage start).bridge
  have happlied := not_failed_of_step hafter.1.failed hmanaged
  obtain ⟨idle, hidle, hid⟩ := hfinish.primarySeat hsome
  obtain ⟨first, hfirst, hid'⟩ := hafter.1.primarySeat hidle
  obtain ⟨before, hbefore⟩ := clearFocus_applyPolicy happlied hlock hlive hfirst
  have hlocked : applied.locked = true := (guarded_applyPolicy _ _).locked.trans hlock
  obtain ⟨extra, hextra, -⟩ := (hafter.2.trans hleft.toGuarded).requests hlocked
  have hclear : ∀ final : State, final.requests = applied.requests ++ extra →
      .clearFocus seat.id ∈ newRequests sys.bridge final := by
    intro final hfinal
    have hsent : applied.requests
        = sys.bridge.requests ++ (before ++ [.clearFocus seat.id]) := by
      rw [← List.append_assoc, ← hid, ← hid']
      exact hbefore
    rw [newRequests, hfinal, hsent, List.append_assoc, List.drop_left]
    simp
  exact hclear _ hextra

/-! ## A locked sequence -/

/-- A locked session drops its queue. -/
theorem drainInput_of_locked {sys : System} (hlock : sys.bridge.locked = true) :
    drainInput sys = sys.onBridge fun s => { s with input := [] } := by
  have hnone : ∀ event, admits event sys.bridge = none := by
    intro event
    simp [admits, hlock]
  have hdrain : ∀ event, drainEvent sys event = sys := by
    intro event
    rw [drainEvent, hnone]
  have hfold : ∀ events : List Input, events.foldl drainEvent sys = sys := by
    intro events
    induction events with
    | nil => rfl
    | cons event events ih => rw [List.foldl_cons, hdrain, ih]
  rw [drainInput, hfold]

/-- What a locked sequence tells. -/
theorem told_of_locked {sys : System} (hlock : sys.bridge.locked = true) :
    Tells ([9, 10] ++ lifecycleKinds ++ [22, 23, 7]) sys.runtime (runManage sys).runtime := by
  have hdrained : (drainInput (beforeQueue sys)).runtime = (beforeQueue sys).runtime := by
    rw [drainInput_of_locked ((guarded_beforeQueue sys).locked.trans hlock)]
    rfl
  obtain ⟨before, hbefore, hkinds⟩ := (hears_beforeQueue sys).tells
  obtain ⟨drag, hdrag, hkinds'⟩ := (hears_publishDrag (drainInput (beforeQueue sys))).tells
  obtain ⟨after, hafter, hkinds''⟩ := tells_finishManage (handedOver sys)
  refine ⟨before ++ drag ++ after, ?_, fun d hd => ?_⟩
  · rw [runManage_handedOver, hafter, handedOver, hdrag, hdrained, hbefore]
    simp only [List.append_assoc]
  · rcases List.mem_append.mp hd with hd | hd
    · rcases List.mem_append.mp hd with hd | hd
      · exact List.mem_append_left _ (hkinds d hd)
      · have hsub : ([22, 23] : List Int) ⊆ [9, 10] ++ lifecycleKinds ++ [22, 23, 7] := by decide
        exact hsub (hkinds' d hd)
    · have hsub : ([7] : List Int) ⊆ [9, 10] ++ lifecycleKinds ++ [22, 23, 7] := by decide
      exact hsub (hkinds'' d hd)

/-- An operation that has ended was ended, unless its seat is gone. -/
theorem opEnd_of_ended {s s' : State} (h : Operation s) (h' : Operation s') (hne : s.pointerSeat ≠ 0)
    (hended : s'.pointerSeat = 0) (hsent : ∃ extra, s'.requests = s.requests ++ extra)
    (hlive : (findSeat s.pointerSeat s').isSome) :
    .opEnd s.pointerSeat ∈ newRequests s s' := by
  have hpos : 1 ≤ s.pointerSeat := Nat.one_le_iff_ne_zero.mpr hne
  obtain ⟨extra, hextra⟩ := hsent
  obtain ⟨held, hrun, -, hback⟩ := (h.seats s.pointerSeat hpos).run
  obtain ⟨held', hrun', hheld', -⟩ := (h'.seats s.pointerSeat hpos).run
  obtain rfl := hback rfl
  have hfree : held' = false := by
    refine Bool.eq_false_iff.mpr fun ht => ?_
    rcases hheld' ht with heq | hgone
    · exact hne (heq.symm.trans hended)
    · obtain ⟨seat, hfind⟩ := Option.isSome_iff_exists.mp hlive
      obtain ⟨hmem, hid, halive⟩ := findSeat_some hfind
      exact absurd (halive.symm.trans (hgone.2.2 seat hmem hid)) nofun
  subst hfree
  rw [hextra, runMonitor_append, hrun, Option.bind_some] at hrun'
  rw [newRequests, hextra, List.drop_left]
  exact mem_of_toggle_released hrun'

/-- A locked sequence that finishes. -/
theorem locked_runManage {sys : System} (hagree : Agreement sys) (hstep : LockInStep sys)
    (hlock : sys.bridge.locked = true) (hf : (runManage sys).bridge.failed = false) :
    (runManage sys).runtime.runtimePolicy.pointerOperation = none
      ∧ (runManage sys).bridge.pointerSeat = 0
      ∧ (sys.bridge.pointerSeat ≠ 0 → (findSeat sys.bridge.pointerSeat (runManage sys).bridge).isSome →
        .opEnd sys.bridge.pointerSeat ∈ newRequests sys.bridge (runManage sys).bridge)
      ∧ ∀ seat, primarySeat (runManage sys).bridge = some seat →
        .clearFocus seat.id ∈ newRequests sys.bridge (runManage sys).bridge
        ∧ (∀ binding ∈ seat.bindings, binding.enabled = false)
        ∧ ∀ binding ∈ seat.pointerBindings, binding.enabled = false := by
  have hlevel := level_runManage hagree
  obtain ⟨hsession, hlocked⟩ := lock_runManage hstep hagree.reachable
  have hnone := pointerOperation_of_locked (settled_of_reachable hlevel.reachable)
    (hsession.trans hlock)
  have htriple : (runManage sys).bridge.pointerTriple = (0, 0, 0) := by
    rw [hlevel.level hf, operationTriple, hnone]
  have hended : (runManage sys).bridge.pointerSeat = 0 := by
    simpa [State.pointerTriple] using congrArg Prod.fst htriple
  obtain ⟨extra, hextra, -⟩ := (guarded_runManage sys).requests hlock
  obtain ⟨before, hbefore, -⟩ := (guarded_handedOver sys).requests hlock
  have hover : (handedOver sys).bridge.locked = true := (guarded_handedOver sys).locked.trans hlock
  have hfinished : (finishManage (handedOver sys)).bridge.failed = false :=
    runManage_handedOver sys ▸ hf
  have hlive := (draining_handedOver hagree).1.live
    (not_failed_of_step failed_finishManage hfinished)
  refine ⟨hnone, hended, fun hne => opEnd_of_ended hagree.operation hlevel.operation hne hended
    ⟨extra, hextra⟩, fun seat hsome => ⟨?_, ?_⟩⟩
  · have hclear : .clearFocus seat.id ∈ newRequests (handedOver sys).bridge (runManage sys).bridge :=
      clearFocus_finishManage hf hover hlive hsome
    rw [newRequests, hbefore, List.length_append] at hclear
    rw [newRequests]
    exact List.mem_of_mem_drop (List.drop_drop ▸ hclear)
  · obtain ⟨hprimary, hmem⟩ := primarySeat_some hsome
    have hlocked' : (runManage sys).bridge.locked = true := hlocked.trans hlock
    obtain ⟨hkeys, hpointers⟩ := switched_finishManage hf seat hmem hprimary
    refine ⟨fun binding hb => ?_, fun binding hb => Bool.eq_false_iff.mpr fun hon => ?_⟩
    · rw [hkeys binding hb]
      change (!(runManage sys).bridge.locked && _) = false
      rw [hlocked']
      rfl
    · exact Bool.false_ne_true ((hpointers binding hb hon).symm.trans hlocked')

end XmonadWayland.Bridge

namespace XmonadWayland

open Bridge

/-- **Locked sessions**: in every manage sequence with the session locked the policy is
locked too when it is handed over, no input reaches it and no client is focused or
closed; a sequence that finishes clears the focus, ends the pointer operation and leaves
every binding of the primary seat off. -/
theorem locked_manage_sequence {cfg : Config} (hcfg : validateConfig cfg = .ok ())
    (loads : List (Option Config)) (decode : List UInt8 → String) (cbs : List Callback) :
    let sys := runSystem cbs (initialSystem cfg loads decode)
    let managed := managerManageStart sys
    sys.bridge.locked = true →
      (handedOver sys).runtime.runtimePolicy.sessionLocked = (handedOver sys).bridge.locked
      ∧ (∀ d ∈ toldSince sys managed, d.kind ∉ ([5, 20, 21] : List Int))
      ∧ (∀ r ∈ newRequests sys.bridge managed.bridge, r.needsUnlocked = false)
      ∧ (managed.bridge.failed = false →
        managed.runtime.runtimePolicy.pointerOperation = none ∧ managed.bridge.pointerSeat = 0
        ∧ (sys.bridge.pointerSeat ≠ 0 → (findSeat sys.bridge.pointerSeat managed.bridge).isSome →
          .opEnd sys.bridge.pointerSeat ∈ newRequests sys.bridge managed.bridge)
        ∧ ∀ seat, primarySeat managed.bridge = some seat →
          .clearFocus seat.id ∈ newRequests sys.bridge managed.bridge
          ∧ (∀ binding ∈ seat.bindings, binding.enabled = false)
          ∧ ∀ binding ∈ seat.pointerBindings, binding.enabled = false) := by
  intro sys managed hlock
  have hagree : Agreement sys := agreement_runSystem (agreement_initial hcfg loads decode) cbs
  have hstep : LockInStep sys :=
    lockInStep_runSystem (agreement_initial hcfg loads decode) (fun _ => rfl) cbs
  have hlocked : (handedOver sys).bridge.locked = true := (guarded_handedOver sys).locked.trans hlock
  refine ⟨(lock_handedOver hstep hagree.reachable).trans (hlock.trans hlocked.symm), ?_⟩
  have hidle : ∀ f : Bridge.State → Bridge.State, (f sys.bridge).requests = sys.bridge.requests →
      (∀ d ∈ toldSince sys (sys.onBridge f), d.kind ∉ ([5, 20, 21] : List Int))
        ∧ ∀ r ∈ newRequests sys.bridge (sys.onBridge f).bridge, r.needsUnlocked = false := by
    intro f hf
    refine ⟨by simp [toldSince, System.onBridge], fun r hr => ?_⟩
    rw [newRequests, show (sys.onBridge f).bridge.requests = sys.bridge.requests from hf] at hr
    simp at hr
  rcases managerManageStart_cases sys with ⟨hfailed, heq⟩ | ⟨message, -, heq⟩ | ⟨-, heq⟩
  · obtain ⟨htold, hsent⟩ := hidle id rfl
    rw [show managed = sys.onBridge id from heq]
    exact ⟨htold, hsent, fun hf => absurd (hf.symm.trans hfailed) Bool.false_ne_true⟩
  · obtain ⟨htold, hsent⟩ := hidle (fail message) rfl
    rw [show managed = sys.onBridge (fail message) from heq]
    exact ⟨htold, hsent, fun hf => absurd hf.symm Bool.false_ne_true⟩
  · rw [show managed = runManage sys from heq]
    refine ⟨fun d hd => ?_, fun r hr => ?_, locked_runManage hagree hstep hlock⟩
    · obtain ⟨told, htold, hkinds⟩ := told_of_locked hlock
      rw [toldSince, htold, List.drop_left] at hd
      have hkind := hkinds d hd
      generalize d.kind = kind at hkind ⊢
      revert hkind kind
      decide
    · obtain ⟨extra, hextra, hguard⟩ := (guarded_runManage sys).requests hlock
      rw [newRequests, hextra, List.drop_left] at hr
      exact hguard r hr

/-- A locked session with a key pressed and a window held. -/
def lockedSystem : System := runSystem (pressedCallbacks ++ [.managerManageStart,
  .managerRenderStart, .bindingPressed 1 0, .managerLocked]) (initialSystem defaultConfig [] fun _ => "")

theorem locked_manage_sequence_pressed :
    (managerManageStart lockedSystem).bridge.pointerSeat = 0
      ∧ .opEnd 1 ∈ newRequests lockedSystem.bridge (managerManageStart lockedSystem).bridge
      ∧ .clearFocus 1 ∈ newRequests lockedSystem.bridge (managerManageStart lockedSystem).bridge := by
  have hlock : lockedSystem.bridge.locked = true := by decide +kernel
  have hfine : (managerManageStart lockedSystem).bridge.failed = false := by decide +kernel
  have hheld : lockedSystem.bridge.pointerSeat = 1 := by decide +kernel
  have hlives : (findSeat 1 (managerManageStart lockedSystem).bridge).isSome := by decide +kernel
  have hprimary : (primarySeat (managerManageStart lockedSystem).bridge).map Seat.id = some 1 := by
    decide +kernel
  have hsequence := locked_manage_sequence validateConfig_defaultConfig [] (fun _ => "")
    (pressedCallbacks ++ [.managerManageStart, .managerRenderStart, .bindingPressed 1 0,
      .managerLocked])
  unfold lockedSystem at hlock hfine hheld hlives hprimary ⊢
  generalize runSystem (pressedCallbacks ++ [.managerManageStart, .managerRenderStart,
    .bindingPressed 1 0, .managerLocked]) (initialSystem defaultConfig [] fun _ => "") = sys
    at hlock hfine hheld hlives hprimary hsequence ⊢
  obtain ⟨-, -, -, hfinished⟩ := hsequence hlock
  obtain ⟨-, hended, hopEnd, hseat⟩ := hfinished hfine
  obtain ⟨seat, hsome, hid⟩ := Option.map_eq_some_iff.mp hprimary
  rw [hheld] at hopEnd
  exact ⟨hended, hopEnd (by decide) hlives, hid ▸ (hseat seat hsome).1⟩

/-- A locked sequence that finds an output without geometry gives up, and the focus stays
where it is. -/
theorem locked_sequence_fails :
    let sys := runSystem [.registryXkb, .managerSeat, .managerOutput, .managerLocked]
      (initialSystem defaultConfig [] fun _ => "")
    let managed := managerManageStart sys
    Starts sys.bridge ∧ sys.bridge.locked = true
      ∧ (primarySeat managed.bridge).map Seat.id = some 1
      ∧ .clearFocus 1 ∉ newRequests sys.bridge managed.bridge := by
  unfold Starts
  decide +kernel

end XmonadWayland
