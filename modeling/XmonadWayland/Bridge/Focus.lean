import XmonadWayland.Bridge.Presented
import XmonadWayland.Bridge.Locked

/-!
# XmonadWayland.Bridge.Focus

The keyboard focus over whole runs.  A manage sequence sends one focus request, for the window
the policy focuses, at the end of the hand over; it sends none while a layer surface has the
focus.
-/

namespace XmonadWayland.Bridge

/-! ## Before the hand over -/

section Stages

/-- What asks for no focus leaves the focus requests sent. -/
theorem focusSent_of_attends {s s' : State} (h : Attends [] s s') : focusSent s' = focusSent s :=
  h.requests.trans (List.append_nil _)

/-- Announcing windows sends no focus request. -/
theorem focusSent_announceWindows (sys : System) :
    focusSent (announceWindows sys).bridge = focusSent sys.bridge := by
  refine focusSent_of_sent rfl fun r hr => ?_
  obtain ⟨w, -, hr⟩ := List.mem_flatMap.mp hr
  unfold Window.configureRequests at hr
  split at hr
  · contradiction
  · simp only [List.mem_cons, List.not_mem_nil, or_false] at hr
    rcases hr with rfl | rfl | rfl | rfl <;> rfl

/-- Nor does the lifecycle update. -/
theorem focusSent_updateLifecycle (sys : System) :
    focusSent (updateLifecycle sys).bridge = focusSent sys.bridge := by
  have houtputs : focusSent (dropOutputs sys).bridge = focusSent sys.bridge :=
    focusSent_of_sent rfl (List.forall_mem_map.mpr fun _ _ => rfl)
  have hwindows : ∀ t : System, focusSent (dropWindows t).bridge = focusSent t.bridge := fun _ =>
    focusSent_of_sent rfl (List.forall_mem_map.mpr fun _ _ => rfl)
  have hpublished : ∀ t : System, focusSent (publishOutputs t).bridge = focusSent t.bridge := by
    intro t
    unfold publishOutputs
    simp only
    split <;> rfl
  have hseats : ∀ t : System, focusSent (dropSeats t).bridge = focusSent t.bridge := fun _ =>
    focusSent_of_sent rfl (List.forall_mem_map.mpr fun _ _ => rfl)
  have hprimary : ∀ (cfg : Config) (s : State),
      focusSent (configurePrimary cfg s) = focusSent s := by
    intro cfg s
    unfold configurePrimary
    split
    · split
      · rfl
      · exact focusSent_of_attends (attends_configureSeat s cfg _)
    · rfl
  have hearly : focusSent (publishOutputs (dropWindows (dropOutputs sys))).bridge
      = focusSent sys.bridge := (hpublished _).trans ((hwindows _).trans houtputs)
  unfold updateLifecycle
  simp only
  split
  · exact hearly
  · refine (focusSent_of_attends (attends_xwSetBindingMode _ _)).trans ((hprimary _ _).trans ?_)
    exact (hseats _).trans ((focusSent_announceWindows _).trans hearly)

/-- Nor does handing the events over. -/
theorem focusSent_handedOver (sys : System) :
    focusSent (handedOver sys).bridge = focusSent sys.bridge := by
  have hbegin : focusSent (publishLock (sys.onBridge fun s =>
      { s with phase := .manage })).bridge = focusSent sys.bridge := by
    unfold publishLock
    split <;> rfl
  have hprimary : ∀ (f : Seat → Seat) (s : State), focusSent (modifyPrimary f s) = focusSent s := by
    intro f s
    unfold modifyPrimary
    split <;> rfl
  have hdrained : ∀ t : System, focusSent (drainInput t).bridge = focusSent t.bridge := fun t =>
    drainEvents_induction (P := fun s => focusSent s = focusSent t.bridge) _ rfl fun _ _ h => h
  have hbefore : focusSent (beforeQueue sys).bridge = focusSent sys.bridge := by
    refine (hprimary _ _).trans ?_
    rw [bridge_cancelOperation]
    exact (focusSent_updateLifecycle _).trans hbegin
  refine Eq.trans ?_ ((hdrained _).trans hbefore)
  rw [handedOver]
  rcases publishDrag_cases (drainInput (beforeQueue sys)) with h | ⟨id, events, -, h⟩ <;> rw [h]
  rfl

end Stages

/-! ## The hand over -/

section HandOver

variable {sys : System}

/-- What precedes the placing calls asks for no focus. -/
theorem attends_readyToPlace (p : Policy) (s : State) : Attends [] s (readyToPlace p s) :=
  ((attends_xwSetBindingMode s _).both (attends_xwSetPointerOperation _ _ _ _)).both
    (attends_xwSetOutput _ _)

/-- The request for the window the policy focuses. -/
def focusRequest (seat : Nat) (wid : Option WindowId) : Request :=
  wid.elim (.clearFocus seat) (.focusWindow seat)

/-- What is sent when the window to focus is visible, or there is none. -/
theorem focusRequests_eq {sent : List Request} {s s' : State} (h : Attends sent s s')
    {wid : Option WindowId} (hnone : wid = none → findWindow 0 s = none)
    (hsome : ∀ w, wid = some w → (findWindow w s).any Window.visible ∧ s.locked = false)
    (hlive : ∀ seat ∈ s.seats, seat.removed = false) :
    focusRequests (wid.getD 0) s = (primarySeat s').toList.flatMap fun seat =>
      if !s'.locked && layerHasFocus s' then [] else [focusRequest seat.id wid] := by
  have hasked : ∀ seat : Nat, (if (findWindow (wid.getD 0) s).any Window.visible ∧ !s.locked
      then [Request.focusWindow seat (wid.getD 0)] else [.clearFocus seat])
        = [focusRequest seat wid] := by
    intro seat
    cases wid with
    | none => simp [hnone rfl, focusRequest]
    | some w =>
        obtain ⟨hvisible, hlocked⟩ := hsome w rfl
        simp [focusRequest, hvisible, hlocked]
  have hprimary := h.primarySeat
  rw [focusRequests, h.layer, h.locked]
  cases hseat : primarySeat s with
  | none =>
      rw [hseat, Option.map_none, Option.map_eq_none_iff] at hprimary
      rw [hprimary]
      rfl
  | some seat =>
      rw [hseat, Option.map_some] at hprimary
      obtain ⟨seat', hseat', hsame⟩ := Option.map_eq_some_iff.mp hprimary
      have hid : seat'.id = seat.id := congrArg Prod.fst hsame
      have hremoved : seat.removed = false := hlive seat (primarySeat_some hseat).2
      rw [hseat', Option.toList_some, Option.toList_some, List.flatMap_singleton,
        List.flatMap_singleton, hasked, hid, hremoved]
      simp

/-- A placement that is visible leaves a visible record. -/
theorem visible_placeAll {s : State} {p : Policy} {w : WindowId} {record : Window}
    (hs : Placeable s) (hvisible : w ∈ visibleWindows p) (hw : findWindow w s = some record) :
    (findWindow w (placeAll ((renderPolicy p).map Placement.placing) s)).any Window.visible := by
  obtain ⟨pl, hpl, rfl⟩ := List.mem_map.mp hvisible
  obtain ⟨hmem, hshown⟩ := List.mem_filter.mp hpl
  obtain ⟨hsettled, -⟩ := settled_pass hs (List.mem_map_of_mem hmem) (nodup_placings p) hw
  rw [show findWindow pl.placementWindow _ = _ from hsettled]
  exact (obeys_settled _ _ _ _).visible.trans hshown

/-- The end of a manage transaction sends the policy's one focus request. -/
theorem focusSent_finishManage (hr : Reachable sys.runtime.runtimeConfig sys.runtime.runtimePolicy)
    (hledger : Ledger sys.bridge) (hphase : sys.bridge.phase = .manage)
    (hopen : ∀ w ∈ sys.bridge.windows, w.closed = false)
    (hlive : ∀ seat ∈ sys.bridge.seats, seat.removed = false)
    (hlock : sys.runtime.runtimePolicy.sessionLocked = sys.bridge.locked)
    (hf : (finishManage sys).bridge.failed = false)
    (hfound : ∀ w, focusedWindow sys.runtime.runtimePolicy = some w →
      (findWindow w (finishManage sys).bridge).isSome) :
    focusSent (finishManage sys).bridge = focusSent sys.bridge
      ++ (primarySeat (finishManage sys).bridge).toList.flatMap fun seat =>
        if !(finishManage sys).bridge.locked && layerHasFocus (finishManage sys).bridge then []
        else [focusRequest seat.id (focusedWindow sys.runtime.runtimePolicy)] := by
  let handed := sys.onBridge fun s => { s with pointerCancelBatch := false }
  let ready := readyToPlace sys.runtime.runtimePolicy handed.bridge
  let calls := (renderPolicy sys.runtime.runtimePolicy).map Placement.placing
  have hmanaged : (manage handed).bridge.failed = false := (finishManage_answers hf).1
  have hcancel : Ledger handed.bridge := { hledger with }
  have hs : Placeable ready := placeable_readyToPlace hcancel hphase hmanaged
  have hcancelled : Attends [] sys.bridge handed.bridge := .fields rfl rfl rfl rfl
  have hready : Attends [] sys.bridge ready := hcancelled.both (attends_readyToPlace _ _)
  have hplaced : Attends [] ready (placeAll calls ready) := attends_placeAll ready calls
  have hsent : Attends (focusRequests ((focusedWindow sys.runtime.runtimePolicy).getD 0)
      (placeAll calls ready)) ready (finishManage sys).bridge := @attends_finishManage sys hs hf
  have hwindows : ready.windows = sys.bridge.windows := (windows_readyToPlace _ handed.bridge).1
  rw [hsent.requests, focusSent_of_attends hready]
  refine congrArg (focusSent sys.bridge ++ ·) (focusRequests_eq (hsent.after hplaced) (fun _ => ?_)
    (fun w hw => ⟨?_, ?_⟩) fun seat hseat => ?_)
  · -- No record has the id 0.
    rw [findWindow, List.find?_eq_none]
    intro w hw hid
    have hmem : w.id ∈ sys.bridge.windows.map Window.id := by
      rw [← hwindows, ← (passKept hs calls).ids]
      exact List.mem_map_of_mem hw
    have hpos := hledger.windows.positive _ hmem
    simp only [Bool.not_eq_true', decide_eq_true_eq] at hid
    omega
  · obtain ⟨after, hafter⟩ := Option.isSome_iff_exists.mp (hfound w hw)
    rw [(finishManage_answers hf).2, findWindow, windows_sendStop] at hafter
    obtain ⟨record, hrecord⟩ := exists_handed hs hopen hafter
    refine visible_placeAll hs (visible_of_focused (managed_of_reachable hr).toConsistent hw) (?_ :
      findWindow w ready = some record)
    rw [findWindow, hwindows]
    exact hrecord
  · rw [hplaced.locked, hready.locked, ← hlock]
    refine Bool.eq_false_iff.mpr fun hsession => ?_
    rw [focusedWindow_of_locked hsession] at hw
    contradiction
  · obtain ⟨old, hold, hsame⟩ : ∃ old ∈ sys.bridge.seats, old.attention = seat.attention := by
      rw [← List.mem_map, ← hready.seats, ← hplaced.seats]
      exact List.mem_map_of_mem hseat
    exact (congrArg (fun kept => kept.2.1) hsame).symm.trans (hlive old hold)

end HandOver

/-! ## Runs -/

def Wire.request : Wire → Option Request
  | .asked r => some r
  | _ => none

/-- The requests about the focus in the traffic. -/
def focusAsked (log : List Wire) : List Request :=
  (log.filterMap Wire.request).filter Request.isFocus

/-- The focus asked for is read off the requests sent since. -/
theorem focusAsked_traffic {sys : System} {cb : Callback} {extra sent : List Request}
    (hrequests : (sys.step cb).bridge.requests = sys.bridge.requests ++ extra)
    (hsent : focusSent (sys.step cb).bridge = focusSent sys.bridge ++ sent) :
    focusAsked (traffic sys cb) = sent := by
  have hborn : ∀ ids : List Nat, (ids.map (Wire.born cb)).filterMap Wire.request = [] := by
    intro ids
    rw [List.filterMap_map]
    exact List.filterMap_eq_nil_iff.mpr fun _ _ => rfl
  have hasked : ∀ requests : List Request,
      (requests.map Wire.asked).filterMap Wire.request = requests := by
    intro requests
    rw [List.filterMap_map]
    exact List.filterMap_some
  rw [focusSent, hrequests, List.filter_append] at hsent
  rw [focusAsked, traffic, hrequests, List.drop_left, List.filterMap_cons, List.filterMap_append,
    hborn, hasked]
  exact List.append_cancel_left hsent

/-- A manage sequence that succeeds, for the focus. -/
theorem focusSent_runManage {sys : System} {doomed : Nat → Prop} (h : Synced doomed sys)
    (hstep : LockInStep sys) (hok : sys.bridge.failed = false)
    (hf : (runManage sys).bridge.failed = false)
    (ht : Told doomed (runManage sys).runtime.delivered (runManage sys).bridge) :
    focusSent (runManage sys).bridge = focusSent sys.bridge
      ++ (primarySeat (runManage sys).bridge).toList.flatMap fun seat =>
        if !(runManage sys).bridge.locked && layerHasFocus (runManage sys).bridge then []
        else [focusRequest seat.id (focusedWindow (runManage sys).runtime.runtimePolicy)] := by
  have hdraining := (draining_handedOver h.toAgreement).1
  have hopen := (announced_handedOver ⟨h.ledger hok, h.stream hok⟩ hf).windows
  have hlock : (handedOver sys).runtime.runtimePolicy.sessionLocked
      = (handedOver sys).bridge.locked :=
    (lock_handedOver hstep h.reachable).trans (guarded_handedOver sys).locked.symm
  have hm : Mirror (runManage sys).runtime := mirror_runManage h.mirror
  have hl : Ledger (runManage sys).bridge := (level_runManage h.toAgreement).ledger hf
  have hfound : ∀ w, focusedWindow (runManage sys).runtime.runtimePolicy = some w →
      (findWindow w (runManage sys).bridge).isSome := by
    intro w hw
    have hvisible := visible_of_focused (managed_of_reachable hm.reachable).toConsistent hw
    obtain ⟨pl, hpl, rfl⟩ := List.mem_map.mp hvisible
    exact (mem_placements hm ht hl _).mp (List.mem_map_of_mem (List.mem_of_mem_filter hpl))
  have hhanded : (handedOver sys).bridge.failed = false := by
    rw [runManage_handedOver] at hf
    exact not_failed_of_step failed_finishManage hf
  rw [← focusSent_handedOver sys]
  rw [runManage_handedOver] at hf hfound ⊢
  rw [policy_finishManage] at hfound ⊢
  exact focusSent_finishManage hdraining.reachable (hdraining.ledger hhanded) hdraining.phase
    (fun w hw => (hopen w hw).1) (hdraining.live hhanded) hlock hf hfound

/-- **Keyboard focus**: in every run, whatever the compositor calls, a manage sequence without
failure asks for the focus once, if there is a seat: for the window the policy focuses, or to
clear the focus if it focuses none.  While a layer surface has the focus of an unlocked session
it asks for nothing. -/
theorem focus_as_policy {cfg : Config} (hcfg : validateConfig cfg = .ok ())
    (loads : List (Option Config)) (decode : List UInt8 → String) (cbs : List Callback) :
    let before := runSystem cbs (initialSystem cfg loads decode)
    let sys := before.step .managerManageStart
    sys.bridge.failed = false → focusAsked (traffic before .managerManageStart)
      = (primarySeat sys.bridge).toList.flatMap fun seat =>
        if !sys.bridge.locked && layerHasFocus sys.bridge then []
        else [focusRequest seat.id (focusedWindow sys.runtime.runtimePolicy)] := by
  intro before sys hf
  have h : Synced (fun _ => False) before := synced_runSystem (synced_initial hcfg loads decode) cbs
  have hstep : LockInStep before :=
    lockInStep_runSystem (agreement_initial hcfg loads decode) (fun _ => rfl) cbs
  have hok : before.bridge.failed = false :=
    not_failed_of_step (failed_step · .managerManageStart) hf
  have ht := told_managerManageStart h hf
  obtain ⟨extra, hrequests⟩ := sent_transacts (transacts_managerManageStart before)
  refine focusAsked_traffic hrequests ?_
  change focusSent sys.bridge = _
  rcases managerManageStart_cases before with ⟨hfailed, -⟩ | ⟨message, -, heq⟩ | ⟨-, heq⟩
  · exact absurd (hfailed.symm.trans hok) nofun
  · rw [show sys = _ from heq] at hf
    contradiction
  · rw [show sys = runManage before from heq] at hf ⊢
    rw [heq] at ht
    exact focusSent_runManage h hstep hok hf ht

/-- A press on window 3 asks for its focus. -/
theorem focus_as_policy_pressed :
    focusAsked (traffic (runSystem pressedCallbacks (initialSystem defaultConfig [] fun _ => ""))
      .managerManageStart) = [.focusWindow 1 3] := by
  rw [focus_as_policy validateConfig_defaultConfig [] (fun _ => "") pressedCallbacks
    (by decide +kernel)]
  decide +kernel

end XmonadWayland.Bridge
