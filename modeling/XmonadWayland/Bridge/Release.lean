import XmonadWayland.Bridge.Drag
import XmonadWayland.Bridge.Log

/-!
# XmonadWayland.Bridge.Release

The motion of a drag on its way to the policy.  The seat of the operation is the primary
one as long as it lives (`Held`), so the next manage sequence tells the policy its newest
delta and then the release (`release_delivered`).  The policy drags from the rectangle
it captured, so nothing but the newest delta shows in the end (`drag_run`).
-/

namespace XmonadWayland.Bridge

/-! ## The seat of the operation -/

/-- The seat of the operation in progress is the primary one or gone. -/
def Held (s : State) : Prop :=
  s.pointerSeat ≠ 0 → ∀ seat ∈ s.seats, seat.id = s.pointerSeat → s.primary = some s.pointerSeat

/-- Without an operation nothing has to be held. -/
theorem held_of_none {s : State} (h : s.pointerSeat = 0) : Held s := fun hne => absurd h hne

/-- Records with the same seats keep the operation held. -/
theorem Held.of_records {s s' : State} (h : Held s)
    (hseats : ∀ seat' ∈ s'.seats, ∃ seat ∈ s.seats, seat.id = seat'.id)
    (hprimary : s'.primary = s.primary) (hpointer : s'.pointerSeat = s.pointerSeat) : Held s' := by
  intro hne seat' hmem hid
  obtain ⟨seat, hseat, heq⟩ := hseats seat' hmem
  rw [hpointer] at hne hid ⊢
  rw [hprimary]
  exact h hne seat hseat (heq.trans hid)

theorem Held.fields {s s' : State} (h : Held s) (hseats : s'.seats = s.seats)
    (hprimary : s'.primary = s.primary) (hpointer : s'.pointerSeat = s.pointerSeat) : Held s' :=
  h.of_records (fun seat hmem => ⟨seat, hseats ▸ hmem, rfl⟩) hprimary hpointer

/-- A quiet change keeps it held. -/
theorem Held.quiet {still : Prop} {s s' : State} (h : Held s) (hq : Quiet still s s') :
    Held s' := by
  obtain ⟨f, hf, heq⟩ := hq.seats
  refine h.of_records (fun seat' hmem => ?_) hq.primary hq.pointerSeat
  obtain ⟨seat, hseat, rfl⟩ := List.mem_map.mp (heq ▸ hmem)
  exact ⟨seat, hseat, (hf seat).id.symm⟩

/-- A new seat is another one. -/
theorem held_managerSeat {s : State} (h : Held s) (hop : Operation s) : Held (managerSeat s) := by
  have hnew : (newId s).2.seats = s.seats ∧ (newId s).2.primary = s.primary
      ∧ (newId s).2.pointerSeat = s.pointerSeat := by
    rcases newId_cases s with heq | heq <;> rw [heq] <;> exact ⟨rfl, rfl, rfl⟩
  have hother : s.pointerSeat ≠ 0 → (newId s).1 ≠ s.pointerSeat := by
    intro hne
    have hle := hop.seat_le
    rcases newId_cases s with heq | heq <;> rw [heq]
    · exact Ne.symm hne
    · exact fun he => by change s.nextId + 1 = s.pointerSeat at he; omega
  obtain ⟨hseats, hprimary, hpointer⟩ := hnew
  unfold managerSeat
  generalize newId s = new at hseats hprimary hpointer hother ⊢
  obtain ⟨id, s'⟩ := new
  refine Held.quiet (fun hne seat hmem hid => ?_) (quiet_attachLayerSeat id _)
  have hne' : s.pointerSeat ≠ 0 := hpointer ▸ hne
  change seat ∈ s'.seats ++ [{ id := id }] at hmem
  change seat.id = s'.pointerSeat at hid
  change (if s'.primary = none then some id else s'.primary) = some s'.pointerSeat
  simp only at hseats hprimary hpointer hother
  rw [hpointer] at hid ⊢
  rw [hprimary]
  rcases List.mem_append.mp hmem with hold | hnew
  · have hprim := h hne' seat (hseats ▸ hold) hid
    rw [hprim, if_neg (Option.some_ne_none _)]
  · rw [List.mem_singleton.mp hnew] at hid
    exact absurd hid (hother hne')

/-- A callback outside a transaction keeps it held. -/
theorem held_listen {s : State} (h : Held s) (hop : Operation s) (cb : Callback) :
    Held (listen cb s) := by
  have hnew : Held (newId s).2 := by
    rcases newId_cases s with heq | heq <;> rw [heq] <;> exact h.fields rfl rfl rfl
  have hadded : Held { (newId s).2 with
      outputs := (newId s).2.outputs ++ [{ id := (newId s).1 }] } := hnew.fields rfl rfl rfl
  exact listen_induction (P := Held) (hnew.fields rfl rfl rfl)
    (hadded.quiet (quiet_attachLayerOutput (newId s).1 _)) (held_managerSeat h hop)
    (fun _ hquiet => h.quiet hquiet) cb

/-- Dropping seats keeps it held. -/
theorem held_dropSeats {sys : System} (h : Held sys.bridge) : Held (dropSeats sys).bridge := by
  intro hne seat hmem hid
  have hprim := h hne seat (List.mem_of_mem_filter hmem) hid
  have hkept : ((sys.bridge.seats.filter fun seat => !seat.removed).any
      fun seat => seat.id = sys.bridge.pointerSeat) = true :=
    List.any_eq_true.mpr ⟨seat, hmem, decide_eq_true hid⟩
  change (sys.bridge.primary.filter fun id => (sys.bridge.seats.filter fun seat =>
    !seat.removed).any fun seat => seat.id = id).or _ = some sys.bridge.pointerSeat
  rw [hprim, Option.filter_some, if_pos hkept]
  rfl

theorem held_publishOutputs {sys : System} (h : Held sys.bridge) :
    Held (publishOutputs sys).bridge := by
  unfold publishOutputs
  simp only
  split
  · exact h.fields rfl rfl rfl
  · exact h.fields rfl rfl rfl

/-- The lifecycle update keeps it held. -/
theorem held_updateLifecycle {sys : System} (h : Held sys.bridge) :
    Held (updateLifecycle sys).bridge := by
  have hdropped : Held (dropWindows (dropOutputs sys)).bridge := h.fields rfl rfl rfl
  have hearly := held_publishOutputs hdropped
  unfold updateLifecycle
  simp only
  split
  · exact hearly
  · have hannounced : Held (publishMetadata (announceWindows (publishOutputs
        (dropWindows (dropOutputs sys))))).bridge := hearly.fields rfl rfl rfl
    exact (held_dropSeats hannounced).quiet (quiet_configured _ _)

/-- What precedes the queue keeps it held. -/
theorem held_beforeQueue {sys : System} (h : Held sys.bridge) : Held (beforeQueue sys).bridge := by
  have hlock : Held (publishLock (sys.onBridge fun s => { s with phase := .manage })).bridge := by
    unfold publishLock
    split
    · exact h.fields rfl rfl rfl
    · exact h.fields rfl rfl rfl
  have hlifecycle := held_updateLifecycle hlock
  rw [← bridge_cancelOperation] at hlifecycle
  exact hlifecycle.quiet (quiet_override false _)

theorem held_drainInput {sys : System} (h : Held sys.bridge) : Held (drainInput sys).bridge := by
  have hfold : Held (sys.bridge.input.foldl drainEvent sys).bridge :=
    drainEvents_induction _ h fun id s hs => hs.quiet (quiet_modifySeat id seatStep_override s)
  exact hfold.fields rfl rfl rfl

theorem held_publishDrag {sys : System} (h : Held sys.bridge) : Held (publishDrag sys).bridge := by
  rcases publishDrag_cases sys with heq | ⟨id, events, -, heq⟩ <;> rw [heq]
  · exact h
  · exact h.quiet (quiet_modifySeat id seatStep_settle sys.bridge)

/-- An operation starts on the primary seat. -/
theorem held_xwSetPointerOperation {s : State} (h : Held s) (seatId windowId edges : Nat) :
    Held (xwSetPointerOperation seatId windowId edges s) := by
  unfold xwSetPointerOperation
  split
  · exact h.fields rfl rfl rfl
  split
  · exact h
  split
  · split
    · exact held_of_none rfl
    · exact held_of_none rfl
  split
  · exact h
  split
  · next seat window _ _ =>
    split
    · exact h
    · next hstart =>
      have hprimary : s.primary = some seat.id := by
        by_contra hne
        exact hstart (Or.inl hne)
      unfold startOperation
      split
      · exact fun _ _ _ _ => hprimary
      · exact fun _ _ _ _ => hprimary
  · exact h

/-- The manage callback keeps it held. -/
theorem held_manage {sys : System} (h : Held sys.bridge) : Held (manage sys).bridge := by
  refine manage_induction (P := fun t => Held t.bridge) ?_ fun t effect ht =>
    ht.quiet (quiet_execute t effect).1
  change Held (applyPolicy sys.runtime.runtimePolicy sys.bridge)
  rw [applyPolicy_eq]
  exact (held_xwSetPointerOperation (h.quiet (quiet_xwSetBindingMode _ _)) _ _ _).quiet
    (quiet_pushed _ _)

theorem Held.finish {s : State} (h : Held s) {g : State → State} (hg : ∀ s, Quiet True s (g s)) :
    Held (sendStop { (if s.failed then s else g s) with phase := .idle }) := by
  have hidle : Held { s with phase := .idle } := h.fields rfl rfl rfl
  exact hidle.quiet (quiet_finish hg s)

theorem held_finishManage {sys : System} (h : Held sys.bridge) : Held (finishManage sys).bridge := by
  have hcancel : Held (sys.onBridge fun s => { s with pointerCancelBatch := false }).bridge :=
    h.fields rfl rfl rfl
  unfold finishManage
  simp only
  split
  · exact Held.finish hcancel quiet_manageFinish
  · exact Held.finish (held_manage hcancel) quiet_manageFinish

theorem held_managerManageStart {sys : System} (h : Held sys.bridge) :
    Held (managerManageStart sys).bridge := by
  rcases managerManageStart_cases sys with ⟨-, heq⟩ | ⟨message, -, heq⟩ | ⟨-, heq⟩ <;> rw [heq]
  · exact h
  · exact h.fields rfl rfl rfl
  · rw [runManage_eq]
    exact held_finishManage (held_publishDrag (held_drainInput (held_beforeQueue h)))

theorem held_managerRenderStart {sys : System} (h : Held sys.bridge) :
    Held (managerRenderStart sys).bridge := by
  rcases managerRenderStart_cases sys with ⟨-, heq⟩ | ⟨message, -, heq⟩ | ⟨-, heq⟩ <;> rw [heq]
  · exact h
  · exact h.fields rfl rfl rfl
  · have hidle : Held { sys.bridge with phase := .idle } := h.fields rfl rfl rfl
    exact hidle.quiet (quiet_runRender sys)

/-- Every run keeps it held. -/
theorem held_runSystem {sys : System} (hagree : Agreement sys) (h : Held sys.bridge)
    (cbs : List Callback) : Held (runSystem cbs sys).bridge :=
  (runSystem_induction (P := fun sys => Agreement sys ∧ Held sys.bridge)
    (fun sys cb ⟨hagree, h⟩ => ⟨agreement_step sys cb hagree,
      step_induction (P := fun sys => Held sys.bridge) (held_managerManageStart h)
        (held_managerRenderStart h) (fun cb => held_listen h hagree.operation cb) cb⟩)
    ⟨hagree, h⟩ cbs).2

/-! ## Until the motion is published -/

/-- The motion of a seat between two manage sequences. -/
def Seat.motion (seat : Seat) : Int × Int × Bool × Bool :=
  (seat.deltaX, seat.deltaY, seat.deltaPending, seat.releasePending)

/-- Seats keep their motion; the primary seat stays as long as it lives. -/
structure Carried (s s' : State) : Prop where
  motion : ∀ seat' ∈ s'.seats, ∃ seat ∈ s.seats, seat.id = seat'.id ∧ seat'.motion = seat.motion
  lives : ∀ seat ∈ s.seats, seat.removed = false → s.primary = some seat.id →
    s'.primary = some seat.id ∧ ∃ seat' ∈ s'.seats, seat'.id = seat.id ∧ seat'.removed = false
  pointerSeat : s'.pointerSeat = s.pointerSeat

namespace Carried

variable {s s' s'' : State}

theorem trans (h : Carried s s') (h' : Carried s' s'') : Carried s s'' where
  motion seat'' hmem := by
    obtain ⟨seat', hmem', hid', hmotion'⟩ := h'.motion seat'' hmem
    obtain ⟨seat, hseat, hid, hmotion⟩ := h.motion seat' hmem'
    exact ⟨seat, hseat, hid.trans hid', hmotion'.trans hmotion⟩
  lives seat hmem hlive hprimary := by
    obtain ⟨hprimary', seat', hmem', hid', hlive'⟩ := h.lives seat hmem hlive hprimary
    have hkept := h'.lives seat' hmem' hlive' (hid' ▸ hprimary')
    rwa [hid'] at hkept
  pointerSeat := h'.pointerSeat.trans h.pointerSeat

theorem fields (hseats : s'.seats = s.seats) (hprimary : s'.primary = s.primary)
    (hpointer : s'.pointerSeat = s.pointerSeat) : Carried s s' where
  motion seat hmem := ⟨seat, hseats ▸ hmem, rfl, rfl⟩
  lives seat hmem hlive hprim := ⟨hprimary.trans hprim, seat, hseats ▸ hmem, rfl, hlive⟩
  pointerSeat := hpointer

theorem refl (s : State) : Carried s s := fields rfl rfl rfl

theorem send (requests : List Request) (s : State) : Carried s (send requests s) :=
  fields rfl rfl rfl

theorem modifySeat (id : Nat) {f : Seat → Seat} (hf : ∀ seat, (f seat).id = seat.id
    ∧ (f seat).removed = seat.removed ∧ (f seat).motion = seat.motion) (s : State) :
    Carried s (modifySeat id f s) where
  motion seat' hmem := by
    obtain ⟨seat, hseat, rfl⟩ := List.mem_map.mp hmem
    refine ⟨seat, hseat, ?_⟩
    split
    · exact ⟨(hf seat).1.symm, (hf seat).2.2⟩
    · exact ⟨rfl, rfl⟩
  lives seat hmem hlive hprimary := by
    refine ⟨hprimary, _, List.mem_map_of_mem hmem, ?_⟩
    split
    · exact ⟨(hf seat).1, (hf seat).2.1.trans hlive⟩
    · exact ⟨rfl, hlive⟩
  pointerSeat := rfl

theorem foldl {α : Type} {f : State → α → State} (hf : ∀ s x, Carried s (f s x)) (xs : List α)
    (s : State) : Carried s (xs.foldl f s) :=
  List.foldlRecOn (motive := fun t => Carried s t) xs f (refl s) fun t ht x _ => ht.trans (hf t x)

end Carried

/-- Adding a binding carries the motions over. -/
theorem carried_xwAddBinding (keysym modifiers index mode : Nat) (s : State) :
    Carried s (xwAddBinding keysym modifiers index mode s) := by
  unfold xwAddBinding
  split
  · next seat _ =>
    split
    · exact Carried.fields rfl rfl rfl
    · refine (Carried.modifySeat seat.id ?_ s).trans (Carried.send _ _)
      exact fun _ => ⟨rfl, rfl, rfl⟩
  · exact Carried.fields rfl rfl rfl

/-- Configuring a seat carries them over. -/
theorem carried_configureSeat (cfg : Config) (seat : Seat) (s : State) :
    Carried s (configureSeat cfg seat s) := by
  have hbindings : ∀ t, Carried t (xwConfigureBindings cfg t) := fun t =>
    Carried.foldl (fun t _ => carried_xwAddBinding _ _ _ _ t) _ t
  unfold configureSeat
  refine Carried.trans (Carried.trans (Carried.trans (Carried.modifySeat seat.id ?_ s)
    (Carried.send _ _)) (hbindings _)) (Carried.modifySeat seat.id ?_ _)
  · exact fun _ => ⟨rfl, rfl, rfl⟩
  · exact fun _ => ⟨rfl, rfl, rfl⟩

/-- Switching the binding mode carries them over. -/
theorem carried_xwSetBindingMode (mode : Nat) (s : State) :
    Carried s (xwSetBindingMode mode s) := by
  unfold xwSetBindingMode
  split
  · exact Carried.fields rfl rfl rfl
  · have hmode : Carried s { s with bindingMode := mode } := Carried.fields rfl rfl rfl
    simp only
    split
    · exact hmode
    · next seat _ =>
      refine hmode.trans ((Carried.modifySeat seat.id ?_ _).trans (Carried.send _ _))
      exact fun _ => ⟨rfl, rfl, rfl⟩

/-- Configuring the primary seat carries them over. -/
theorem carried_configured (cfg : Config) (s : State) :
    Carried s (xwSetBindingMode s.bindingMode (configurePrimary cfg s)) := by
  have hprimary : Carried s (configurePrimary cfg s) := by
    unfold configurePrimary
    split
    · split
      · exact Carried.refl s
      · exact carried_configureSeat cfg _ s
    · exact Carried.refl s
  exact hprimary.trans (carried_xwSetBindingMode _ _)

/-- Dropping seats carries the motions of the others over. -/
theorem carried_dropSeats (sys : System) : Carried sys.bridge (dropSeats sys).bridge where
  motion seat hmem := ⟨seat, List.mem_of_mem_filter hmem, rfl, rfl⟩
  lives seat hmem hlive hprimary := by
    have hkept : seat ∈ sys.bridge.seats.filter fun seat => !seat.removed :=
      List.mem_filter.mpr ⟨hmem, by simp [hlive]⟩
    have hany : ((sys.bridge.seats.filter fun seat => !seat.removed).any
        fun other => other.id = seat.id) = true :=
      List.any_eq_true.mpr ⟨seat, hkept, decide_eq_true rfl⟩
    refine ⟨?_, seat, hkept, rfl, hlive⟩
    change (sys.bridge.primary.filter fun id => (sys.bridge.seats.filter fun seat =>
      !seat.removed).any fun seat => seat.id = id).or _ = some seat.id
    rw [hprimary, Option.filter_some, if_pos hany]
    rfl
  pointerSeat := rfl

/-- The lifecycle update carries the motions over. -/
theorem carried_updateLifecycle (sys : System) :
    Carried sys.bridge (updateLifecycle sys).bridge := by
  have hearly : Carried sys.bridge (publishOutputs (dropWindows (dropOutputs sys))).bridge := by
    unfold publishOutputs
    simp only
    split
    · exact Carried.fields rfl rfl rfl
    · exact Carried.fields rfl rfl rfl
  unfold updateLifecycle
  simp only
  split
  · exact hearly
  · have hannounced : Carried sys.bridge (publishMetadata (announceWindows (publishOutputs
        (dropWindows (dropOutputs sys))))).bridge := hearly.trans (Carried.fields rfl rfl rfl)
    exact (hannounced.trans (carried_dropSeats _)).trans (carried_configured _ _)

/-- So does what precedes the queue. -/
theorem carried_beforeQueue (sys : System) : Carried sys.bridge (beforeQueue sys).bridge := by
  have hlock : Carried sys.bridge
      (publishLock (sys.onBridge fun s => { s with phase := .manage })).bridge := by
    unfold publishLock
    split
    · exact Carried.fields rfl rfl rfl
    · exact Carried.fields rfl rfl rfl
  have hcancelled : Carried sys.bridge (cancelOperation (updateLifecycle (publishLock
      (sys.onBridge fun s => { s with phase := .manage })))).bridge := by
    rw [bridge_cancelOperation]
    exact hlock.trans (carried_updateLifecycle _)
  refine hcancelled.trans ?_
  change Carried _ (modifyPrimary _ _)
  unfold modifyPrimary
  split
  · refine Carried.modifySeat _ ?_ _
    exact fun _ => ⟨rfl, rfl, rfl⟩
  · exact Carried.refl _

/-- So does draining it. -/
theorem carried_drainInput (sys : System) : Carried sys.bridge (drainInput sys).bridge := by
  have hfold : Carried sys.bridge (sys.bridge.input.foldl drainEvent sys).bridge := by
    refine drainEvents_induction _ (Carried.refl _) fun id s h => h.trans (Carried.modifySeat id ?_ s)
    exact fun _ => ⟨rfl, rfl, rfl⟩
  exact hfold.trans (Carried.fields rfl rfl rfl)

/-! ## What the policy is told -/

/-- Events of a drag. -/
def Delivered.isDrag (d : Delivered) : Bool := d.kind = 22 ∨ d.kind = 23

/-- What is published of the motion of a seat. -/
def motionEvents (sid : Nat) : Int × Int × Bool × Bool → List Delivered
  | (x, y, pending, release) =>
    (if pending then [.event 22 sid x y 0 0] else []) ++ if release then [.event 23 sid 0 0 0 0] else []

/-- The drag is delivered for the seat of the operation, or nothing is. -/
theorem delivered_publishDrag (sys : System) :
    (∃ seat, primarySeat sys.bridge = some seat ∧ sys.bridge.pointerSeat = seat.id
        ∧ (publishDrag sys).runtime.delivered
          = sys.runtime.delivered ++ motionEvents seat.id seat.motion)
      ∨ (∀ seat, primarySeat sys.bridge = some seat → sys.bridge.pointerSeat ≠ seat.id)
        ∧ (publishDrag sys).runtime.delivered = sys.runtime.delivered := by
  unfold publishDrag
  split
  · next hnone => exact Or.inr ⟨fun seat hsome => absurd (hnone.symm.trans hsome) nofun, rfl⟩
  · next seat hsome =>
    split
    · next hne =>
      refine Or.inr ⟨fun seat' hsome' => ?_, rfl⟩
      obtain rfl := Option.some.inj (hsome.symm.trans hsome')
      exact hne
    · next heq => exact Or.inl ⟨seat, hsome, not_not.mp heq, delivered_deliverAll _ _⟩

/-- What tells no drag event leaves the drags told. -/
theorem Tells.filter_isDrag {kinds : List Int} {rt rt' : Runtime} (h : Tells kinds rt rt')
    (hkinds : 22 ∉ kinds ∧ 23 ∉ kinds) :
    ∃ told, rt'.delivered = rt.delivered ++ told ∧ told.filter Delivered.isDrag = [] := by
  obtain ⟨told, heq, hmem⟩ := h
  refine ⟨told, heq, List.filter_eq_nil_iff.mpr fun d hd hdrag => ?_⟩
  have hkind := hmem d hd
  rcases of_decide_eq_true hdrag with h22 | h23
  · exact hkinds.1 (h22 ▸ hkind)
  · exact hkinds.2 (h23 ▸ hkind)

/-- **Release**: a manage sequence publishes the motion of the seat of the operation as
a whole, delta before release, and does so if the seat lives. -/
theorem release_delivered {sys : System} {sid : Nat} {motion : Int × Int × Bool × Bool}
    (hseat : sys.bridge.pointerSeat = sid)
    (hmotion : ∀ seat ∈ sys.bridge.seats, seat.id = sid → seat.motion = motion) :
    (toldSince sys (runManage sys)).filter Delivered.isDrag = motionEvents sid motion
      ∨ (toldSince sys (runManage sys)).filter Delivered.isDrag = []
        ∧ ∀ seat ∈ sys.bridge.seats, seat.removed = false → sys.bridge.primary = some seat.id →
          seat.id ≠ sid := by
  have hcarried := (carried_beforeQueue sys).trans (carried_drainInput (beforeQueue sys))
  obtain ⟨before, hbefore, hquiet⟩ := (hears_beforeQueue sys).tells.filter_isDrag (by decide)
  obtain ⟨queue, hqueue, hquiet'⟩ := (hears_drainInput (beforeQueue sys)).tells.filter_isDrag (by decide)
  obtain ⟨after, hafter, hquiet''⟩ :=
    (tells_finishManage (publishDrag (drainInput (beforeQueue sys)))).filter_isDrag (by decide)
  have htold : ∀ drag, (publishDrag (drainInput (beforeQueue sys))).runtime.delivered
      = (drainInput (beforeQueue sys)).runtime.delivered ++ drag →
      (toldSince sys (runManage sys)).filter Delivered.isDrag = drag.filter Delivered.isDrag := by
    intro drag hdrag
    rw [toldSince, runManage_eq, hafter, hdrag, hqueue, hbefore]
    simp only [List.append_assoc, List.drop_left, List.filter_append, hquiet, hquiet', hquiet'',
      List.nil_append, List.append_nil]
  have hdrags : ∀ motion, (motionEvents sid motion).filter Delivered.isDrag
      = motionEvents sid motion := by
    rintro ⟨x, y, pending, release⟩
    cases pending <;> cases release <;> rfl
  rcases delivered_publishDrag (drainInput (beforeQueue sys)) with ⟨seat, hprimary, hid, hdrag⟩
    | ⟨hother, hdrag⟩
  · have hsid : seat.id = sid := hid.symm.trans (hcarried.pointerSeat.trans hseat)
    obtain ⟨seat₀, hmem₀, hid₀, hmotion₀⟩ := hcarried.motion seat (primarySeat_some hprimary).2
    rw [hmotion₀, hmotion seat₀ hmem₀ (hid₀.trans hsid), hsid] at hdrag
    exact Or.inl ((htold _ hdrag).trans (hdrags motion))
  · refine Or.inr ⟨htold [] (hdrag.trans (List.append_nil _).symm), fun seat hmem hlive hprim => ?_⟩
    obtain ⟨hprimary, seat', hmem', hid', -⟩ := hcarried.lives seat hmem hlive hprim
    rintro rfl
    have hfound : ∃ seat'', primarySeat (drainInput (beforeQueue sys)).bridge = some seat'' := by
      refine Option.isSome_iff_exists.mp ?_
      rw [primarySeat, hprimary, Option.bind_some]
      exact List.find?_isSome.mpr ⟨seat', hmem', decide_eq_true hid'⟩
    obtain ⟨seat'', hsome⟩ := hfound
    have hsame := Option.some.inj ((primarySeat_some hsome).1.symm.trans hprimary)
    exact hother seat'' hsome (hcarried.pointerSeat.trans (hseat.trans hsame.symm))

/-- A noted motion is the seat's motion. -/
theorem motion_noteMotion {sid : Nat} {x y : Int} {s : State} :
    ∀ seat ∈ (noteMotion sid ⟨some (x, y), true⟩ s).seats, seat.id = sid →
      seat.motion = (x, y, true, true) := by
  intro seat hmem hid
  obtain ⟨before, -, rfl⟩ := List.mem_map.mp hmem
  by_cases hsid : before.id = sid
  · simp [hsid, Motion.apply, Seat.motion]
  · rw [if_neg hsid] at hid
    exact absurd hid hsid

end XmonadWayland.Bridge

namespace XmonadWayland

open Bridge

/-! ## What the policy makes of it -/

/-- What Haskell is called with while a seat drags. -/
inductive DragCall where
  | moved (dx dy : Int)
  | actualSize (window : WindowId) (width height : Int)
  | manage
  | render

def DragCall.call (sid : SeatId) (sys : System) : DragCall → System
  | moved dx dy => sys.deliver (.event 22 sid dx dy 0 0)
  | actualSize window width height => sys.deliver (.event 25 window width height 0 0)
  | manage => XmonadWayland.manage sys
  | render => XmonadWayland.render sys

/-- The end of a drag. -/
def releaseDrag (sid : SeatId) (sys : System) : System := sys.deliver (.event 23 sid 0 0 0 0)

def DragCall.delta : DragCall → Option (Int × Int)
  | moved dx dy => some (dx, dy)
  | _ => none

/-- The system after the calls of a drag. -/
def runDrag (sid : SeatId) (calls : List DragCall) (sys : System) : System :=
  calls.foldl (DragCall.call sid) sys

/-- The delta of the last motion. -/
def newestMove (calls : List DragCall) : Option (Int × Int) :=
  (calls.filterMap DragCall.delta).getLast?

/-- Rectangle and anchor of the dragged window. -/
def dragged (op : PointerOperation) (p : Policy) : Option Rect × Option PointerAnchor :=
  ((metadataFor p op.pointerWindow).windowFloatRect, p.pointerAnchors[op.pointerWindow]?)

section Drag

variable {op : PointerOperation} {sys : System}

/-- One call of a drag. -/
theorem dragging_call (h : Dragging op sys.runtime.runtimePolicy) (call : DragCall) :
    Dragging op (call.call op.pointerSeat sys).runtime.runtimePolicy
      ∧ (metadataFor (call.call op.pointerSeat sys).runtime.runtimePolicy
          op.pointerWindow).windowFloatRect
        = ((call.delta.map fun delta => dragGeometry op delta.1 delta.2).or
          (metadataFor sys.runtime.runtimePolicy op.pointerWindow).windowFloatRect) := by
  cases call with
  | moved dx dy =>
      have hdecode : sys.runtime.decode (.event 22 op.pointerSeat dx dy 0 0)
          = some (.pointerMoved op.pointerSeat dx dy) := rfl
      have hstep := policy_deliver hdecode
      obtain ⟨hdrag, hrect⟩ := dragging_moved h sys.runtime.runtimeConfig dx dy
      exact ⟨hstep ▸ hdrag, hstep ▸ hrect⟩
  | actualSize window width height =>
      have hdecode : sys.runtime.decode (.event 25 window width height 0 0)
          = some (.windowActualSize window width height) := rfl
      have hstep := policy_deliver hdecode
      obtain ⟨hdrag, hrect⟩ := dragging_acknowledged h sys.runtime.runtimeConfig window width height
      exact ⟨hstep ▸ hdrag, hstep ▸ hrect⟩
  | manage =>
      have hsame : ((DragCall.manage).call op.pointerSeat sys).runtime.runtimePolicy
          = sys.runtime.runtimePolicy := policy_manage sys
      rw [hsame]
      exact ⟨h, rfl⟩
  | render => exact ⟨h, rfl⟩

/-- **Drags**: only the newest delta shows. -/
theorem dragging_run (h : Dragging op sys.runtime.runtimePolicy) (calls : List DragCall) :
    Dragging op (runDrag op.pointerSeat calls sys).runtime.runtimePolicy
      ∧ (metadataFor (runDrag op.pointerSeat calls sys).runtime.runtimePolicy
          op.pointerWindow).windowFloatRect
        = (((newestMove calls).map fun delta => dragGeometry op delta.1 delta.2).or
          (metadataFor sys.runtime.runtimePolicy op.pointerWindow).windowFloatRect) := by
  induction calls using List.reverseRecOn with
  | nil => exact ⟨h, rfl⟩
  | append_singleton calls call ih =>
      have hrun : runDrag op.pointerSeat (calls ++ [call]) sys
          = call.call op.pointerSeat (runDrag op.pointerSeat calls sys) := by
        simp [runDrag]
      obtain ⟨hdrag, hrect⟩ := dragging_call ih.1 call
      rw [hrun]
      refine ⟨hdrag, hrect.trans ?_⟩
      rw [ih.2]
      cases hdelta : call.delta with
      | none => simp [newestMove, hdelta]
      | some delta => simp [newestMove, hdelta]

/-- The release keeps rectangle and anchor. -/
theorem dragged_released (h : Dragging op sys.runtime.runtimePolicy) :
    dragged op (releaseDrag op.pointerSeat sys).runtime.runtimePolicy
      = ((metadataFor sys.runtime.runtimePolicy op.pointerWindow).windowFloatRect, some op.anchor) := by
  have hdecode : sys.runtime.decode (.event 23 op.pointerSeat 0 0 0 0)
      = some (.pointerReleased op.pointerSeat) := rfl
  have hstep := policy_deliver hdecode
  have hreleased := hstep.trans (h.released sys.runtime.runtimeConfig)
  change dragged op (sys.runtime.deliver (.event 23 op.pointerSeat 0 0 0 0)).runtimePolicy = _
  rw [hreleased]
  exact congrArg (fun anchor => ((metadataFor sys.runtime.runtimePolicy
    op.pointerWindow).windowFloatRect, anchor)) h.anchor

end Drag

/-- A manage sequence after a batch that moved and released the seat of the operation. -/
theorem release_of_batch {sys : System} (hagree : Agreement sys) (hheld : Held sys.bridge)
    {op : PointerOperation} (hop : sys.runtime.runtimePolicy.pointerOperation = some op)
    {batch : List Callback} (hbatch : .managerManageStart ∉ batch) {x y : Int}
    (hdelta : newestDelta op.pointerSeat batch = some (x, y))
    (hrelease : .seatOpRelease op.pointerSeat ∈ batch) :
    let after := runSystem batch sys
    let told := (toldSince after (managerManageStart after)).filter Delivered.isDrag
    told = [.event 22 op.pointerSeat x y 0 0, .event 23 op.pointerSeat 0 0 0 0]
      ∨ told = [] ∧ ¬(Starts after.bridge ∧ (findSeat op.pointerSeat after.bridge).isSome) := by
  intro after told
  have hnothing : ∀ f, (toldSince after (after.onBridge f)).filter Delivered.isDrag = [] := fun f => by
    simp [toldSince, System.onBridge]
  have hruns : after.bridge.failed = false →
      (toldSince after (runManage after)).filter Delivered.isDrag
          = [.event 22 op.pointerSeat x y 0 0, .event 23 op.pointerSeat 0 0 0 0]
        ∨ (toldSince after (runManage after)).filter Delivered.isDrag = []
          ∧ ¬(findSeat op.pointerSeat after.bridge).isSome := by
    intro hfailed
    obtain ⟨hne, htriple⟩ := hagree.inStep (not_failed_runSystem hfailed) op hop
    have hseat : sys.bridge.pointerSeat = op.pointerSeat := by
      have ht : operationTriple sys.runtime.runtimePolicy
          = (op.pointerSeat, op.pointerWindow, op.pointerEdges) := by rw [operationTriple, hop]
      exact congrArg Prod.fst (htriple.trans ht)
    have hafter : after.bridge.pointerSeat = op.pointerSeat :=
      (tame_runSystem hbatch sys).1.trans hseat
    have hmotion : ∀ seat ∈ after.bridge.seats, seat.id = op.pointerSeat →
        seat.motion = (x, y, true, true) := by
      have heq := runSystem_batch hbatch hseat ⟨hseat ▸ hne, hseat ▸ hagree.operation.seat_le⟩
      rw [motionOf, hdelta, decide_eq_true hrelease] at heq
      change ∀ seat ∈ (runSystem batch sys).bridge.seats, _
      rw [heq]
      exact motion_noteMotion
    refine (release_delivered hafter hmotion).imp_right fun h => ⟨h.1, fun hsome => ?_⟩
    obtain ⟨seat, hfind⟩ := Option.isSome_iff_exists.mp hsome
    obtain ⟨hmem, hid, hlive⟩ := findSeat_some hfind
    have hprimary := held_runSystem hagree hheld batch (hafter ▸ hseat ▸ hne) seat hmem
      (hid.trans hafter.symm)
    exact h.2 seat hmem hlive (hprimary.trans (congrArg some (hafter.trans hid.symm))) hid
  by_cases hstarts : Starts after.bridge
  · rw [show told = (toldSince after (runManage after)).filter Delivered.isDrag by
      rw [← managerManageStart_of_starts hstarts]]
    exact (hruns hstarts.1).imp_right fun h => ⟨h.1, fun hsome => h.2 hsome.2⟩
  · have hno : ¬(Starts after.bridge ∧ (findSeat op.pointerSeat after.bridge).isSome) :=
      fun h => hstarts h.1
    rcases managerManageStart_cases after with ⟨-, heq⟩ | ⟨message, -, heq⟩ | ⟨hfailed, heq⟩
    · exact Or.inr ⟨(congrArg (fun t => (toldSince after t).filter Delivered.isDrag) heq).trans
        (hnothing id), hno⟩
    · exact Or.inr ⟨(congrArg (fun t => (toldSince after t).filter Delivered.isDrag) heq).trans
        (hnothing _), hno⟩
    · rw [show told = (toldSince after (runManage after)).filter Delivered.isDrag by rw [← heq]]
      exact (hruns hfailed).imp_right fun h => ⟨h.1, hno⟩

/-- **Drags**: two drags with the same last motion leave the window alike, and two
batches with the same newest delta leave the system alike; the policy is told that delta
before the release. -/
theorem drag_follows_newest_delta :
    (∀ (sys : System) (op : PointerOperation),
      Reachable sys.runtime.runtimeConfig sys.runtime.runtimePolicy →
      sys.runtime.runtimePolicy.pointerOperation = some op →
      ∀ calls calls' : List DragCall, newestMove calls = newestMove calls' →
        dragged op (releaseDrag op.pointerSeat
            (runDrag op.pointerSeat calls sys)).runtime.runtimePolicy
          = dragged op (releaseDrag op.pointerSeat
            (runDrag op.pointerSeat calls' sys)).runtime.runtimePolicy)
    ∧ ∀ (cfg : Config), validateConfig cfg = .ok () →
      ∀ (loads : List (Option Config)) (decode : List UInt8 → String) (cbs : List Callback),
      let sys := runSystem cbs (initialSystem cfg loads decode)
      (∀ (sid : SeatId) (batch batch' : List Callback), sid ≠ 0 →
        .managerManageStart ∉ batch → .managerManageStart ∉ batch' →
        othersThan sid batch = othersThan sid batch' →
        newestDelta sid batch = newestDelta sid batch' →
        (.seatOpRelease sid ∈ batch ↔ .seatOpRelease sid ∈ batch') →
        runSystem batch sys = runSystem batch' sys)
      ∧ ∀ (op : PointerOperation), sys.runtime.runtimePolicy.pointerOperation = some op →
        ∀ (batch : List Callback) (x y : Int), .managerManageStart ∉ batch →
        newestDelta op.pointerSeat batch = some (x, y) → .seatOpRelease op.pointerSeat ∈ batch →
        let after := runSystem batch sys
        let told := (toldSince after (managerManageStart after)).filter Delivered.isDrag
        told = [.event 22 op.pointerSeat x y 0 0, .event 23 op.pointerSeat 0 0 0 0]
          ∨ told = [] ∧ ¬(Starts after.bridge ∧ (findSeat op.pointerSeat after.bridge).isSome) := by
  refine ⟨fun sys op hr hop calls calls' hnewest => ?_, fun cfg hcfg loads decode cbs => ?_⟩
  · have h := dragging_of_reachable hr hop
    obtain ⟨hdrag, hrect⟩ := dragging_run h calls
    obtain ⟨hdrag', hrect'⟩ := dragging_run h calls'
    rw [dragged_released hdrag, dragged_released hdrag', hrect, hrect', hnewest]
  · have hagree := agreement_runSystem (agreement_initial hcfg loads decode) cbs
    have hheld := held_runSystem (agreement_initial hcfg loads decode) (held_of_none rfl) cbs
    refine ⟨fun sid batch batch' hsid hb hb' hothers hnewest hrelease => ?_,
      fun op hop batch x y hbatch hdelta hrelease =>
        release_of_batch hagree hheld hop hbatch hdelta hrelease⟩
    have hmotion : motionOf sid batch = motionOf sid batch' := by
      simp only [motionOf, hnewest, hrelease]
    exact runSystem_congr hagree.operation hsid hb hb' hothers hmotion

/-- A drag of a floating window. -/
def draggedSystem : System := runSystem (pressedCallbacks ++ [.managerManageStart])
  (initialSystem defaultConfig [] fun _ => "")

def releasedSystem : System :=
  runSystem [.managerRenderStart, .seatOpRelease 1, .seatDelta 1 5 7] draggedSystem

/-- The operation of the run follows its last delta. -/
theorem drag_follows_newest_delta_pressed :
    (∃ op, draggedSystem.runtime.runtimePolicy.pointerOperation = some op
      ∧ dragged op (releaseDrag 1 (runDrag 1 [.moved 9 9, .actualSize 3 80 80, .moved 5 7]
          draggedSystem)).runtime.runtimePolicy
        = dragged op (releaseDrag 1 (runDrag 1 [.manage, .moved 5 7]
          draggedSystem)).runtime.runtimePolicy)
    ∧ runSystem [.seatDelta 1 9 9, .seatDelta 1 5 7, .seatOpRelease 1] draggedSystem
      = runSystem [.seatOpRelease 1, .seatDelta 1 5 7] draggedSystem
    ∧ (toldSince releasedSystem (managerManageStart releasedSystem)).filter Delivered.isDrag
      = [.event 22 1 5 7 0 0, .event 23 1 0 0 0 0] := by
  obtain ⟨hdrags, hbatches⟩ := drag_follows_newest_delta
  obtain ⟨horder, htold⟩ := hbatches defaultConfig validateConfig_defaultConfig [] (fun _ => "")
    (pressedCallbacks ++ [.managerManageStart])
  have hagree : Agreement draggedSystem :=
    agreement_runSystem (agreement_initial validateConfig_defaultConfig [] _) _
  have htriple : operationTriple draggedSystem.runtime.runtimePolicy = (1, 3, 0) := by
    decide +kernel
  have hstarts : Starts releasedSystem.bridge ∧ (findSeat 1 releasedSystem.bridge).isSome := by
    unfold Starts
    decide +kernel
  unfold releasedSystem at hstarts ⊢
  unfold draggedSystem at hagree htriple hstarts ⊢
  generalize runSystem (pressedCallbacks ++ [.managerManageStart])
    (initialSystem defaultConfig [] fun _ => "") = sys at hagree htriple hstarts horder htold ⊢
  cases hop : sys.runtime.runtimePolicy.pointerOperation with
  | none => rw [operationTriple, hop] at htriple; contradiction
  | some op =>
      have hseat : op.pointerSeat = 1 := by
        rw [operationTriple, hop] at htriple
        exact congrArg Prod.fst htriple
      have hrects := hdrags sys op hagree.reachable hop
        [.moved 9 9, .actualSize 3 80 80, .moved 5 7] [.manage, .moved 5 7] (by decide)
      have hreleased := htold op hop [.managerRenderStart, .seatOpRelease 1, .seatDelta 1 5 7] 5 7
        (by decide) (by rw [hseat]; decide) (by rw [hseat]; decide)
      have hordered := horder 1 [.seatDelta 1 9 9, .seatDelta 1 5 7, .seatOpRelease 1]
        [.seatOpRelease 1, .seatDelta 1 5 7] (by decide) (by decide) (by decide) (by decide)
        (by decide) (by decide)
      rw [hseat] at hrects hreleased
      exact ⟨⟨op, rfl, hrects⟩, hordered, hreleased.resolve_right fun h => h.2 hstarts⟩

end XmonadWayland
