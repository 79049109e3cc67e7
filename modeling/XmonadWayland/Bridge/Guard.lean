import XmonadWayland.Bridge.Stage

/-!
# XmonadWayland.Bridge.Guard

The lock and the bindings of seats as the functions of the bridge see them.  None of the
functions Haskell calls changes the lock, and while the session is locked none sends a
request that needs it unlocked (`Guarded`); those that are not about bindings moreover
leave the bindings of every seat alone (`Leaves`).
-/

namespace XmonadWayland.Bridge

/-- Requests a locked session does not send. -/
def Request.needsUnlocked : Request → Bool
  | .focusWindow _ _ => true
  | .close _ => true
  | _ => false

/-! ## Guarded functions -/

structure Guarded (s s' : State) : Prop where
  locked : s'.locked = s.locked
  lockChanged : s'.lockChanged = s.lockChanged
  requests : s.locked = true → ∃ extra : List Request, s'.requests = s.requests ++ extra
    ∧ ∀ r ∈ extra, r.needsUnlocked = false

namespace Guarded

variable {s s' s'' : State}

theorem fields (hlocked : s'.locked = s.locked) (hchanged : s'.lockChanged = s.lockChanged)
    (hrequests : s'.requests = s.requests) : Guarded s s' :=
  ⟨hlocked, hchanged, fun _ => ⟨[], hrequests.trans (List.append_nil _).symm, nofun⟩⟩

theorem refl (s : State) : Guarded s s := fields rfl rfl rfl

theorem trans (h : Guarded s s') (h' : Guarded s' s'') : Guarded s s'' where
  locked := h'.locked.trans h.locked
  lockChanged := h'.lockChanged.trans h.lockChanged
  requests hlock := by
    obtain ⟨extra, heq, hextra⟩ := h.requests hlock
    obtain ⟨extra', heq', hextra'⟩ := h'.requests (h.locked.trans hlock)
    exact ⟨extra ++ extra', by rw [heq', heq, List.append_assoc],
      fun r hr => (List.mem_append.mp hr).elim (hextra r) (hextra' r)⟩

theorem send {requests : List Request} (h : ∀ r ∈ requests, r.needsUnlocked = false) (s : State) :
    Guarded s (send requests s) := ⟨rfl, rfl, fun _ => ⟨requests, rfl, h⟩⟩

theorem foldl {α : Type} {f : State → α → State} (hf : ∀ s x, Guarded s (f s x)) (xs : List α)
    (s : State) : Guarded s (xs.foldl f s) :=
  List.foldlRecOn (motive := fun t => Guarded s t) xs f (refl s) fun t ht x _ => ht.trans (hf t x)

end Guarded

/-- Adding a binding is guarded. -/
theorem guarded_xwAddBinding (keysym modifiers index mode : Nat) (s : State) :
    Guarded s (xwAddBinding keysym modifiers index mode s) := by
  unfold xwAddBinding
  split
  · next seat _ =>
    split
    · exact Guarded.fields rfl rfl rfl
    · exact ⟨rfl, rfl, fun _ => ⟨[.getXkbBinding seat.id keysym modifiers], rfl, by
        simp [Request.needsUnlocked]⟩⟩
  · exact Guarded.fields rfl rfl rfl

/-- Configuring a seat is guarded. -/
theorem guarded_configureSeat (cfg : Config) (seat : Seat) (s : State) :
    Guarded s (configureSeat cfg seat s) := by
  have hbindings : ∀ t, Guarded t (xwConfigureBindings cfg t) := fun t =>
    Guarded.foldl (fun t _ => guarded_xwAddBinding _ _ _ _ t) _ t
  have hmodify : ∀ (f : Seat → Seat) t, Guarded t (modifySeat seat.id f t) := fun _ _ =>
    Guarded.fields rfl rfl rfl
  unfold configureSeat
  refine Guarded.trans (Guarded.trans (Guarded.trans (hmodify _ s) (Guarded.send ?_ _))
    (hbindings _)) (hmodify _ _)
  exact List.forall_mem_map.mpr fun _ _ => rfl

/-- Switching bindings on and off may be asked while locked. -/
theorem needsUnlocked_switchRequests (seat : Seat) (key : Binding → Bool) (pointer : Bool) :
    ∀ r ∈ switchRequests seat key pointer, r.needsUnlocked = false := by
  intro r hr
  rcases List.mem_append.mp hr with hr | hr
  · obtain ⟨b, -, rfl⟩ := List.mem_map.mp hr
    split <;> rfl
  · obtain ⟨b, -, rfl⟩ := List.mem_map.mp hr
    split <;> rfl

/-- Switching the binding mode is guarded. -/
theorem guarded_xwSetBindingMode (mode : Nat) (s : State) :
    Guarded s (xwSetBindingMode mode s) := by
  unfold xwSetBindingMode
  split
  · exact Guarded.fields rfl rfl rfl
  · have hmode : Guarded s { s with bindingMode := mode } := Guarded.fields rfl rfl rfl
    simp only
    split
    · exact hmode
    · exact ⟨rfl, rfl, fun _ => ⟨_, rfl, needsUnlocked_switchRequests _ _ _⟩⟩

/-- Resetting the bindings is guarded. -/
theorem guarded_xwResetBindings (cfg : Config) (s : State) :
    Guarded s (xwResetBindings cfg s) := by
  unfold xwResetBindings
  split
  · exact Guarded.fields rfl rfl rfl
  · split
    · exact Guarded.refl s
    · next seat _ =>
      refine Guarded.trans ?_ (guarded_xwSetBindingMode _ _)
      refine Guarded.trans ?_ (guarded_configureSeat cfg _ _)
      exact ⟨rfl, rfl, fun _ => ⟨_, rfl, List.forall_mem_map.mpr fun _ _ => rfl⟩⟩

/-! ## Functions that leave bindings alone -/

/-- The same seat with the same bindings. -/
structure SeatKept (x x' : Seat) : Prop where
  id : x'.id = x.id
  bindings : x'.bindings = x.bindings
  pointerBindings : x'.pointerBindings = x.pointerBindings
  configured : x'.configured = x.configured

theorem SeatKept.refl (x : Seat) : SeatKept x x := ⟨rfl, rfl, rfl, rfl⟩

theorem SeatKept.trans {x x' x'' : Seat} (h : SeatKept x x') (h' : SeatKept x' x'') :
    SeatKept x x'' :=
  ⟨h'.id.trans h.id, h'.bindings.trans h.bindings, h'.pointerBindings.trans h.pointerBindings,
    h'.configured.trans h.configured⟩

/-- Updates of seats without their bindings. -/
def SeatsKept (s s' : State) : Prop :=
  ∃ f : Seat → Seat, (∀ x, SeatKept x (f x)) ∧ s'.seats = s.seats.map f

namespace SeatsKept

variable {s s' s'' : State}

theorem fields (h : s'.seats = s.seats) : SeatsKept s s' :=
  ⟨fun x => x, SeatKept.refl, h.trans (List.map_id' _).symm⟩

theorem trans (h : SeatsKept s s') (h' : SeatsKept s' s'') : SeatsKept s s'' := by
  obtain ⟨f, hf, heq⟩ := h
  obtain ⟨g, hg, heq'⟩ := h'
  exact ⟨fun x => g (f x), fun x => (hf x).trans (hg (f x)), by rw [heq', heq, List.map_map]; rfl⟩

theorem modifySeat (id : Nat) {f : Seat → Seat} (hf : ∀ x, SeatKept x (f x)) (s : State) :
    SeatsKept s (modifySeat id f s) := by
  refine ⟨fun x => if x.id = id then f x else x, fun x => ?_, rfl⟩
  change SeatKept x (if x.id = id then f x else x)
  split
  · exact hf x
  · exact SeatKept.refl x

end SeatsKept

structure Leaves (s s' : State) : Prop extends Guarded s s' where
  seats : SeatsKept s s'
  primary : s'.primary = s.primary

namespace Leaves

variable {s s' s'' : State}

theorem fields (hseats : s'.seats = s.seats) (hprimary : s'.primary = s.primary)
    (hlocked : s'.locked = s.locked) (hchanged : s'.lockChanged = s.lockChanged)
    (hrequests : s'.requests = s.requests) : Leaves s s' :=
  ⟨Guarded.fields hlocked hchanged hrequests, SeatsKept.fields hseats, hprimary⟩

theorem refl (s : State) : Leaves s s := fields rfl rfl rfl rfl rfl

theorem trans (h : Leaves s s') (h' : Leaves s' s'') : Leaves s s'' :=
  ⟨h.toGuarded.trans h'.toGuarded, h.seats.trans h'.seats, h'.primary.trans h.primary⟩

theorem fail (message : String) (s : State) : Leaves s (fail message s) :=
  fields rfl rfl rfl rfl rfl

theorem send {requests : List Request} (h : ∀ r ∈ requests, r.needsUnlocked = false) (s : State) :
    Leaves s (send requests s) := ⟨Guarded.send h s, SeatsKept.fields rfl, rfl⟩

theorem modifyWindow (id : Nat) (f : Window → Window) (s : State) :
    Leaves s (modifyWindow id f s) := fields rfl rfl rfl rfl rfl

theorem modifySeat (id : Nat) {f : Seat → Seat} (hf : ∀ x, SeatKept x (f x)) (s : State) :
    Leaves s (modifySeat id f s) := ⟨Guarded.fields rfl rfl rfl, SeatsKept.modifySeat id hf s, rfl⟩

theorem foldl {α : Type} {f : State → α → State} (hf : ∀ s x, Leaves s (f s x)) (xs : List α)
    (s : State) : Leaves s (xs.foldl f s) :=
  List.foldlRecOn (motive := fun t => Leaves s t) xs f (refl s) fun t ht x _ => ht.trans (hf t x)

end Leaves

/-- What runs only in a manage phase leaves what its body leaves. -/
theorem leaves_requireManage {f : State → State} (h : ∀ t, Leaves t (f t)) (s : State) :
    Leaves s (requireManage f s) := by
  unfold requireManage
  split
  · exact Leaves.refl s
  · split
    · exact Leaves.fail _ s
    · exact h s

/-- Placing a window asks for nothing that needs an unlocked session. -/
theorem leaves_xwSetWindow (id : Nat) (visible : Bool) (x y width height : Int) (focused : Bool)
    (s : State) : Leaves s (xwSetWindow id visible x y width height focused s) := by
  refine leaves_requireManage (fun t => ?_) s
  split
  · exact Leaves.refl t
  · refine (Leaves.modifyWindow id _ t).trans (Leaves.send (fun r hr => ?_) _)
    rcases List.mem_append.mp hr with hr | hr <;> split at hr <;> simp_all [Request.needsUnlocked]

/-- Nor does choosing the default output. -/
theorem leaves_xwSetOutput (id : Nat) (s : State) : Leaves s (xwSetOutput id s) := by
  refine leaves_requireManage (fun t => ?_) s
  have hpicker : Leaves t { t with pickerOutputId := id } := Leaves.fields rfl rfl rfl rfl rfl
  simp only
  split
  · exact hpicker.trans (Leaves.send (by simp [Request.needsUnlocked]) _)
  · exact hpicker

/-- Nor does applying fullscreen. -/
theorem leaves_applyFullscreen (w : Window) (outputId : Nat) (fullscreen : Bool) (s : State) :
    Leaves s (applyFullscreen w outputId fullscreen s) := by
  unfold applyFullscreen
  simp only
  split
  · split
    · exact (Leaves.modifyWindow w.id _ s).trans (Leaves.send (by simp [Request.needsUnlocked]) _)
    · exact Leaves.refl s
  · split
    · exact (Leaves.modifyWindow w.id _ s).trans (Leaves.send (by simp [Request.needsUnlocked]) _)
    · exact Leaves.refl s

/-- Nor does setting a window's mode. -/
theorem leaves_xwSetMode (id outputId : Nat) (floating fullscreen : Bool) (s : State) :
    Leaves s (xwSetMode id outputId floating fullscreen s) := by
  refine leaves_requireManage (fun t => ?_) s
  split
  · exact Leaves.refl t
  · refine Leaves.trans ?_ (leaves_applyFullscreen _ outputId fullscreen _)
    exact (Leaves.modifyWindow _ _ t).trans (Leaves.send (by simp [Request.needsUnlocked]) _)

/-- Nor does pushing one placement. -/
theorem leaves_placementRequests (placement : Placement) (s : State) :
    Leaves s (placementRequests placement s) :=
  (leaves_xwSetMode _ _ _ _ s).trans (leaves_xwSetWindow _ _ _ _ _ _ _ _)

/-- Nor does setting a render position. -/
theorem leaves_xwSetRenderPosition (id : Nat) (x y : Int) (s : State) :
    Leaves s (xwSetRenderPosition id x y s) := by
  unfold xwSetRenderPosition
  split
  · exact Leaves.fail _ s
  · split
    · exact Leaves.refl s
    · split
      · exact Leaves.refl s
      · exact Leaves.modifyWindow id _ s

/-- A locked session clears the focus. -/
theorem leaves_xwFocus (id : Nat) (s : State) : Leaves s (xwFocus id s) := by
  have hclear : ∀ (seat : Nat) (t : State), Leaves t (send [.clearFocus seat] t) :=
    fun seat t => Leaves.send (by simp [Request.needsUnlocked]) t
  refine leaves_requireManage (fun t => ?_) s
  split
  · exact Leaves.refl t
  · split
    · exact Leaves.refl t
    · split
      · split
        · next h =>
          refine ⟨⟨rfl, rfl, fun hlock => ?_⟩, SeatsKept.fields rfl, rfl⟩
          simp [hlock] at h
        · exact hclear _ t
      · exact hclear _ t

/-- Nor does closing a window. -/
theorem leaves_xwClose (id : Nat) (s : State) : Leaves s (xwClose id s) := by
  refine leaves_requireManage (fun t => ?_) s
  split
  · exact Leaves.refl t
  · next h =>
    split
    · exact ⟨⟨rfl, rfl, fun hlock => absurd hlock h⟩, SeatsKept.fields rfl, rfl⟩
    · exact Leaves.refl t

/-- Nor does sending the stop. -/
theorem leaves_sendStop (s : State) : Leaves s (sendStop s) := by
  have hsent : Leaves s { s with stopSent := true } := Leaves.fields rfl rfl rfl rfl rfl
  unfold sendStop
  split
  · exact hsent.trans (Leaves.send (by simp [Request.needsUnlocked]) _)
  · exact Leaves.refl s

/-- Nor does asking for it. -/
theorem leaves_xwStop (s : State) : Leaves s (xwStop s) := by
  have hrequested : Leaves s { s with stopRequested := true } := Leaves.fields rfl rfl rfl rfl rfl
  unfold xwStop
  simp only
  split
  · exact hrequested.trans (leaves_sendStop _)
  · exact hrequested

/-- Settling keeps what the bindings depend on. -/
theorem seatKept_settle (seat : Seat) : SeatKept seat seat.settle := ⟨rfl, rfl, rfl, rfl⟩

/-- Ending an operation asks for nothing that needs an unlocked session. -/
theorem leaves_endOperation (s : State) : Leaves s (endOperation s) := by
  have hended : ∀ id, Leaves s (send [.opEnd id] (modifySeat id Seat.settle s)) := fun id =>
    (Leaves.modifySeat _ seatKept_settle s).trans (Leaves.send (by simp [Request.needsUnlocked]) _)
  have hinformed : ∀ t id, Leaves s t → Leaves s (send [.informResizeEnd id] t) := fun t id ht =>
    ht.trans (Leaves.send (by simp [Request.needsUnlocked]) _)
  have hcleared : ∀ t : State, Leaves t { t with
      pointerSeat := 0, pointerWindow := 0, pointerEdges := 0 } :=
    fun _ => Leaves.fields rfl rfl rfl rfl rfl
  unfold endOperation
  refine Leaves.trans ?_ (hcleared _)
  cases findSeat s.pointerSeat s with
  | some seat =>
      simp only
      split
      · split
        · exact hinformed _ _ (hended seat.id)
        · exact hended seat.id
      · exact hended seat.id
  | none =>
      simp only
      split
      · split
        · exact hinformed _ _ (Leaves.refl s)
        · exact Leaves.refl s
      · exact Leaves.refl s

/-- Nor does starting one. -/
theorem leaves_startOperation (seat : Seat) (window : Window) (edges : Nat) (s : State) :
    Leaves s (startOperation seat window edges s) := by
  have hgrabbed : Leaves s { s with
      pointerSeat := seat.id, pointerWindow := window.id, pointerEdges := edges } :=
    Leaves.fields rfl rfl rfl rfl rfl
  have hsend : ∀ t, Leaves t (send [.opStartPointer seat.id] t) := fun t =>
    Leaves.send (by simp [Request.needsUnlocked]) t
  have hstarted := (hgrabbed.trans (Leaves.modifySeat seat.id seatKept_settle _)).trans (hsend _)
  unfold startOperation
  simp only
  split
  · exact hstarted.trans (Leaves.send (by simp [Request.needsUnlocked]) _)
  · exact hstarted

/-- Nor does setting the operation. -/
theorem leaves_xwSetPointerOperation (seatId windowId edges : Nat) (s : State) :
    Leaves s (xwSetPointerOperation seatId windowId edges s) := by
  unfold xwSetPointerOperation
  split
  · exact Leaves.fail _ s
  split
  · exact Leaves.refl s
  split
  · split
    · exact (leaves_endOperation s).trans (Leaves.fail _ _)
    · exact leaves_endOperation s
  split
  · exact Leaves.refl s
  split
  · split
    · exact Leaves.refl s
    · exact leaves_startOperation _ _ _ s
  · exact Leaves.refl s

/-- What a policy pushes between the mode and the focus. -/
theorem leaves_placed (p : Policy) (s : State) : Leaves s ((renderPolicy p).foldl
    (fun s placement => placementRequests placement s) (xwSetOutput ((focusedOutput p).getD 0)
      (xwSetPointerOperation (operationTriple p).1 (operationTriple p).2.1
        (operationTriple p).2.2 s))) :=
  ((leaves_xwSetPointerOperation _ _ _ s).trans (leaves_xwSetOutput _ _)).trans
    (Leaves.foldl (fun t placement => leaves_placementRequests placement t) _ _)

/-- The end of a transaction. -/
theorem leaves_finish {g : State → State} (hg : ∀ s, Leaves s (g s)) (s : State) :
    Leaves s (sendStop { (if s.failed then s else g s) with phase := .idle }) := by
  have hidle : ∀ t : State, Leaves t { t with phase := .idle } :=
    fun _ => Leaves.fields rfl rfl rfl rfl rfl
  refine Leaves.trans ?_ (leaves_sendStop _)
  refine Leaves.trans ?_ (hidle _)
  split
  · exact Leaves.refl s
  · exact hg s

/-- What is not reserved to the manage phase needs no unlocked session. -/
theorem needsUnlocked_of_manageOnly {r : Request} (h : r.manageOnly = false) :
    r.needsUnlocked = false := by
  cases r <;> first | rfl | contradiction

/-- The requests of a render transaction need no unlocked session. -/
theorem leaves_renderFinish (s : State) : Leaves s
    { send ((renderable s).flatMap (showRequests s) ++ stackRequests s ++ [.renderFinish]) s
      with awaitingRender := false } := by
  have hsent := Leaves.send (fun r hr =>
    needsUnlocked_of_manageOnly (manageOnly_renderRequests s r hr)) s
  exact hsent.trans (Leaves.fields rfl rfl rfl rfl rfl)

/-- A render sequence is not about the lock or the bindings. -/
theorem leaves_runRender (sys : System) : Leaves sys.bridge (runRender sys).bridge := by
  let shown := (sys.onBridge fun s => { s with phase := .render }).deliverAll
    (sizeEvents sys.bridge.windows)
  have hshown : Leaves sys.bridge shown.bridge := Leaves.fields rfl rfl rfl rfl rfl
  have hmoved : Leaves shown.bridge (render shown).bridge :=
    Leaves.foldl (fun s (q : WindowId × Int × Int) =>
      leaves_xwSetRenderPosition q.1 (bounded q.2.1) (bounded q.2.2) s) _ _
  exact (hshown.trans hmoved).trans (leaves_finish leaves_renderFinish (render shown).bridge)

/-! ## Callbacks -/

/-- Between the transactions: a change of the lock is marked, and a key queued is the
key of a binding. -/
structure Heard (cb : Callback) (s s' : State) : Prop where
  seats : SeatsKept s s'
  primary : s'.primary = s.primary
  lock : s'.lockChanged = true ∨ s'.lockChanged = s.lockChanged ∧ s'.locked = s.locked
  input : ∀ e ∈ s'.input, e ∈ s.input
    ∨ (e.kind = .binding → cb = .bindingPressed e.seatId e.id
      ∧ ∃ seat ∈ s.seats, seat.id = e.seatId ∧ ∃ binding ∈ seat.bindings, binding.index = e.id)

namespace Heard

variable {cb : Callback} {s s' s'' : State}

theorem fields (hseats : s'.seats = s.seats) (hprimary : s'.primary = s.primary)
    (hchanged : s'.lockChanged = s.lockChanged) (hlocked : s'.locked = s.locked)
    (hinput : s'.input = s.input) : Heard cb s s' :=
  ⟨SeatsKept.fields hseats, hprimary, Or.inr ⟨hchanged, hlocked⟩, fun _ he => Or.inl (hinput ▸ he)⟩

theorem refl (s : State) : Heard cb s s := fields rfl rfl rfl rfl rfl

theorem trans (h : Heard cb s s') (h' : Heard cb s' s'') : Heard cb s s'' where
  seats := h.seats.trans h'.seats
  primary := h'.primary.trans h.primary
  lock := by
    rcases h'.lock with hc | ⟨hc, hl⟩
    · exact Or.inl hc
    · rw [hc, hl]
      exact h.lock
  input e he := by
    rcases h'.input e he with hold | hnew
    · exact h.input e hold
    · refine Or.inr fun hkind => ?_
      obtain ⟨hcb, seat', hmem, hid, binding, hb, hidx⟩ := hnew hkind
      obtain ⟨f, hf, heq⟩ := h.seats
      obtain ⟨seat, hseat, rfl⟩ := List.mem_map.mp (heq ▸ hmem)
      exact ⟨hcb, seat, hseat, (hf seat).id ▸ hid, binding, (hf seat).bindings ▸ hb, hidx⟩

theorem modifySeat (id : Nat) {f : Seat → Seat} (hf : ∀ x, SeatKept x (f x)) (s : State) :
    Heard cb s (modifySeat id f s) :=
  ⟨SeatsKept.modifySeat id hf s, rfl, Or.inr ⟨rfl, rfl⟩, fun _ he => Or.inl he⟩

theorem enqueue {event : Input} (h : event.kind = .binding →
    cb = .bindingPressed event.seatId event.id ∧ ∃ seat ∈ s.seats, seat.id = event.seatId
      ∧ ∃ binding ∈ seat.bindings, binding.index = event.id) :
    Heard cb s (enqueue event s) where
  seats := SeatsKept.fields rfl
  primary := rfl
  lock := Or.inr ⟨rfl, rfl⟩
  input e he := (List.mem_append.mp he).imp_right fun he => by
    obtain rfl := List.mem_singleton.mp he
    exact h

end Heard

/-- One piece of a callback is heard as the callback says. -/
theorem heard_of_piece {cb : Callback} {s s' : State} (h : Piece cb s s') : Heard cb s s' := by
  cases h with
  | flags _ h =>
      exact ⟨SeatsKept.fields h.seats, h.primary, h.lock, fun _ he => Or.inl (h.input ▸ he)⟩
  | window => exact Heard.fields rfl rfl rfl rfl rfl
  | output => exact Heard.fields rfl rfl rfl rfl rfl
  | seat id f hf =>
      exact Heard.modifySeat id
        (fun x => ⟨(hf x).id, (hf x).bindings, (hf x).pointerBindings, (hf x).configured⟩) s
  | queue event h => exact Heard.enqueue h.binding
  | attach => exact Heard.fields rfl rfl rfl rfl rfl
  | failure => exact Heard.fields rfl rfl rfl rfl rfl

/-- So is a sequence of pieces. -/
theorem heard_of_pieces {cb : Callback} {s s' : State} (h : Pieces cb s s') : Heard cb s s' :=
  h.keeps (fun s => Heard.refl s) Heard.trans heard_of_piece

/-- Attaching a layer-shell seat is heard. -/
theorem heard_attachLayerSeat (id : Nat) (s : State) :
    Heard .managerSeat s (attachLayerSeat id s) :=
  heard_of_pieces (Pieces.attachLayerSeat rfl id s)

/-- Dealing an id is heard. -/
theorem heard_newId (cb : Callback) (s : State) : Heard cb s (newId s).2 := by
  rcases newId_cases s with heq | heq <;> rw [heq] <;> exact Heard.fields rfl rfl rfl rfl rfl

/-- Announcing a window is heard. -/
theorem heard_managerWindow (s : State) : Heard .managerWindow s (managerWindow s) :=
  (heard_newId _ s).trans (Heard.fields rfl rfl rfl rfl rfl)

/-- Announcing an output is heard. -/
theorem heard_managerOutput (s : State) : Heard .managerOutput s (managerOutput s) := by
  have hadded : Heard .managerOutput (newId s).2 { (newId s).2 with
      outputs := (newId s).2.outputs ++ [{ id := (newId s).1 }] } :=
    Heard.fields rfl rfl rfl rfl rfl
  exact ((heard_newId _ s).trans hadded).trans
    (heard_of_pieces (Pieces.attachLayerOutput rfl (newId s).1 _))

/-- All callbacks but the creation of a seat. -/
theorem heard_listen {cb : Callback} (h : cb ≠ .managerSeat) (s : State) :
    Heard cb s (listen cb s) := by
  refine listen_cases (P := fun cb s' => cb ≠ .managerSeat → Heard cb s s') (fun _ => ?_)
    (fun _ => ?_) (fun hne => absurd rfl hne) (fun cb s' hpieces _ => ?_) cb h
  · exact heard_managerWindow s
  · exact heard_managerOutput s
  · exact heard_of_pieces hpieces

end XmonadWayland.Bridge
