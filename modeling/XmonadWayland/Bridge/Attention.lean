import XmonadWayland.Bridge.Setters

/-!
# XmonadWayland.Bridge.Attention

Where the keyboard focus goes.  One function sends focus requests; the others keep what it
decides by, which seat is the primary one and whether a layer surface has its focus, and ask for
nothing about the focus (`Attends`).
-/

namespace XmonadWayland.Bridge

def Request.isFocus : Request → Bool
  | .focusWindow _ _ => true
  | .clearFocus _ => true
  | _ => false

/-- The focus requests that have been sent. -/
def focusSent (s : State) : List Request := s.requests.filter Request.isFocus

/-- Nothing is sent about the focus. -/
theorem focusSent_of_sent {s s' : State} {sent : List Request}
    (hsent : s'.requests = s.requests ++ sent) (hfree : ∀ r ∈ sent, r.isFocus = false) :
    focusSent s' = focusSent s := by
  have hnone : sent.filter Request.isFocus = [] :=
    List.filter_eq_nil_iff.mpr fun r hr => Bool.eq_false_iff.mp (hfree r hr)
  rw [focusSent, hsent, List.filter_append, hnone, List.append_nil]
  rfl

/-- What the focus depends on of a seat. -/
def Seat.attention (seat : Seat) : Nat × Bool × LayerFocus × Bool :=
  (seat.id, seat.removed, seat.layerFocus, seat.layerFocusOverride)

/-- Seats keep what the focus depends on, and the focus requests `sent` are added. -/
structure Attends (sent : List Request) (s s' : State) : Prop where
  seats : s'.seats.map Seat.attention = s.seats.map Seat.attention
  primary : s'.primary = s.primary
  locked : s'.locked = s.locked
  requests : focusSent s' = focusSent s ++ sent

namespace Attends

variable {sent sent' : List Request} {s s' s'' : State}

theorem trans (h : Attends sent s s') (h' : Attends sent' s' s'') :
    Attends (sent ++ sent') s s'' :=
  ⟨h'.seats.trans h.seats, h'.primary.trans h.primary, h'.locked.trans h.locked,
    by rw [h'.requests, h.requests, List.append_assoc]⟩

/-- What comes after a part that says nothing about the focus. -/
theorem after (h : Attends sent s s'') (h' : Attends [] s s') : Attends sent s' s'' :=
  ⟨h.seats.trans h'.seats.symm, h.primary.trans h'.primary.symm, h.locked.trans h'.locked.symm,
    by rw [h.requests, h'.requests, List.append_nil]⟩

/-- Nothing about the focus, twice. -/
theorem both (h : Attends [] s s') (h' : Attends [] s' s'') : Attends [] s s'' := h.trans h'

theorem tell {requests : List Request} (hs : s'.seats = s.seats) (hp : s'.primary = s.primary)
    (hk : s'.locked = s.locked) (hr : s'.requests = s.requests ++ requests)
    (hfree : ∀ r ∈ requests, r.isFocus = false) : Attends [] s s' := by
  exact ⟨by rw [hs], hp, hk, (focusSent_of_sent hr hfree).trans (List.append_nil _).symm⟩

theorem fields (hs : s'.seats = s.seats) (hp : s'.primary = s.primary)
    (hk : s'.locked = s.locked) (hr : s'.requests = s.requests) : Attends [] s s' :=
  .tell hs hp hk (hr.trans (List.append_nil _).symm) nofun

theorem refl (s : State) : Attends [] s s := .fields rfl rfl rfl rfl

theorem fail (message : String) (s : State) : Attends [] s (fail message s) :=
  .fields rfl rfl rfl rfl

/-- A change of a seat's bindings or motion. -/
theorem modifySeat (id : Nat) {f : Seat → Seat} (hf : ∀ seat, (f seat).attention = seat.attention)
    (s : State) : Attends [] s (modifySeat id f s) := by
  refine ⟨?_, rfl, rfl, (List.append_nil _).symm⟩
  simp only [Bridge.modifySeat, List.map_map]
  refine List.map_congr_left fun seat _ => ?_
  simp only [Function.comp_apply]
  split
  · exact hf seat
  · rfl

theorem send {requests : List Request} (h : ∀ r ∈ requests, r.isFocus = false) (s : State) :
    Attends [] s (send requests s) := .tell rfl rfl rfl rfl h

theorem tellSeat (id : Nat) {f : Seat → Seat} (hf : ∀ seat, (f seat).attention = seat.attention)
    {requests : List Request} (h : ∀ r ∈ requests, r.isFocus = false) (s : State) :
    Attends [] s (Bridge.send requests (Bridge.modifySeat id f s)) :=
  (modifySeat id hf s).both (send h _)

theorem foldl {α : Type} {f : State → α → State} (hf : ∀ t a, Attends [] t (f t a)) (l : List α)
    (s : State) : Attends [] s (l.foldl f s) :=
  List.foldlRecOn (motive := fun t => Attends [] s t) l f (refl s) fun t ht a _ => ht.both (hf t a)

/-- The primary seat, as far as the focus depends on it. -/
theorem primarySeat (h : Attends sent s s') :
    (primarySeat s').map Seat.attention = (primarySeat s).map Seat.attention := by
  have hfind : ∀ (id : Nat) (seats : List Seat), (seats.find? fun seat => seat.id = id).map
      Seat.attention = (seats.map Seat.attention).find? fun kept => kept.1 = id := by
    intro id seats
    rw [List.find?_map]
    rfl
  unfold Bridge.primarySeat
  rw [h.primary]
  cases s.primary with
  | none => rfl
  | some id => rw [Option.bind_some, Option.bind_some, hfind, hfind, h.seats]

/-- The layer-shell focus stays as it is. -/
theorem layer (h : Attends sent s s') : layerHasFocus s' = layerHasFocus s := by
  have hsame := h.primarySeat
  have hlayer : ∀ t : State, layerHasFocus t
      = (((Bridge.primarySeat t).map Seat.attention).elim false fun kept => kept.2.2.1 ≠ .none && !kept.2.2.2) := by
    intro t
    unfold layerHasFocus
    cases Bridge.primarySeat t <;> rfl
  rw [hlayer, hlayer, hsame]

end Attends

/-! ## Functions that Haskell calls -/

section Calls

variable (s : State)

/-- Adding a binding asks for no focus. -/
theorem attends_xwAddBinding (keysym modifiers index mode : Nat) :
    Attends [] s (xwAddBinding keysym modifiers index mode s) := by
  unfold xwAddBinding
  split
  · split
    · exact .fail _ s
    · refine .tellSeat _ ?_ (by simp [Request.isFocus]) s
      exact fun _ => rfl
  · exact .fail _ s

/-- Configuring a seat asks for no focus. -/
theorem attends_configureSeat (cfg : Config) (seat : Seat) :
    Attends [] s (configureSeat cfg seat s) := by
  have hbindings : ∀ t : State, Attends [] t (xwConfigureBindings cfg t) :=
    Attends.foldl (fun t _ => attends_xwAddBinding t _ _ _ _) _
  have hconfigured : ∀ t : State, Attends [] t
      (modifySeat seat.id (fun seat => { seat with configured := true }) t) := by
    intro t
    refine .modifySeat seat.id ?_ t
    exact fun _ => rfl
  unfold configureSeat
  refine Attends.both ?_ ((hbindings _).both (hconfigured _))
  refine .tellSeat _ ?_ (List.forall_mem_map.mpr fun _ _ => rfl) s
  exact fun _ => rfl

/-- Switching bindings on and off asks for no focus. -/
theorem isFocus_switchRequests (seat : Seat) (key : Binding → Bool) (pointer : Bool) :
    ∀ r ∈ switchRequests seat key pointer, r.isFocus = false := by
  intro r hr
  rcases List.mem_append.mp hr with hr | hr <;> obtain ⟨binding, -, rfl⟩ := List.mem_map.mp hr <;>
    split <;> rfl

/-- Switching the binding mode asks for no focus. -/
theorem attends_xwSetBindingMode (mode : Nat) : Attends [] s (xwSetBindingMode mode s) := by
  unfold xwSetBindingMode
  split
  · exact .fail _ s
  · have hmode : Attends [] s { s with bindingMode := mode } := .fields rfl rfl rfl rfl
    simp only
    split
    · exact hmode
    · refine hmode.both (.tellSeat _ ?_ (isFocus_switchRequests _ _ _) _)
      exact fun _ => rfl

/-- Resetting the bindings asks for no focus. -/
theorem attends_xwResetBindings (cfg : Config) : Attends [] s (xwResetBindings cfg s) := by
  unfold xwResetBindings
  split
  · exact .fail _ s
  · split
    · exact .refl s
    · refine Attends.both ?_ ((attends_configureSeat _ cfg _).both (attends_xwSetBindingMode _ _))
      refine .tellSeat _ ?_ (List.forall_mem_map.mpr fun _ _ => rfl) s
      exact fun _ => rfl

/-- Settling keeps what the focus depends on. -/
theorem attention_settle (seat : Seat) : seat.settle.attention = seat.attention := rfl

/-- Ending an operation asks for no focus. -/
theorem attends_endOperation : Attends [] s (endOperation s) := by
  have hended : ∀ seat : Seat,
      Attends [] s (send [.opEnd seat.id] (modifySeat seat.id Seat.settle s)) := fun _ =>
    .tellSeat _ attention_settle (List.forall_mem_singleton.mpr rfl) s
  have hinformed : ∀ (w : Window) t, Attends [] s t →
      Attends [] s (if s.pointerEdges ≠ 0 then send [.informResizeEnd w.id] t else t) := by
    intro w t ht
    split
    · exact ht.both (.send (by simp [Request.isFocus]) _)
    · exact ht
  have hforget : ∀ t : State,
      Attends [] t { t with pointerSeat := 0, pointerWindow := 0, pointerEdges := 0 } :=
    fun _ => .fields rfl rfl rfl rfl
  unfold endOperation
  refine Attends.both ?_ (hforget _)
  cases findSeat s.pointerSeat s with
  | none =>
      cases findWindow s.pointerWindow s with
      | none => exact .refl s
      | some w => exact hinformed w s (.refl s)
  | some seat =>
      cases findWindow s.pointerWindow s with
      | none => exact hended seat
      | some w => exact hinformed w _ (hended seat)

/-- Starting one asks for no focus. -/
theorem attends_startOperation (seat : Seat) (window : Window) (edges : Nat) :
    Attends [] s (startOperation seat window edges s) := by
  have hheld : Attends [] s
      { s with pointerSeat := seat.id, pointerWindow := window.id, pointerEdges := edges } :=
    .fields rfl rfl rfl rfl
  have hstarted : Attends [] s (send [.opStartPointer seat.id] (modifySeat seat.id Seat.settle
      { s with pointerSeat := seat.id, pointerWindow := window.id, pointerEdges := edges })) :=
    hheld.both (.tellSeat _ attention_settle (List.forall_mem_singleton.mpr rfl) _)
  unfold startOperation
  simp only
  split
  · exact hstarted.both (.send (by simp [Request.isFocus]) _)
  · exact hstarted

/-- Setting the operation asks for no focus. -/
theorem attends_xwSetPointerOperation (seatId windowId edges : Nat) :
    Attends [] s (xwSetPointerOperation seatId windowId edges s) := by
  unfold xwSetPointerOperation
  split
  · exact .fail _ s
  · split
    · exact .refl s
    · split
      · split
        · exact (attends_endOperation s).both (.fail _ _)
        · exact attends_endOperation s
      · split
        · exact .refl s
        · split
          · split
            · exact .refl s
            · exact attends_startOperation s _ _ _
          · exact .refl s

/-- What runs only in a manage phase asks for no focus when its body does not. -/
theorem attends_requireManage {f : State → State} (hf : ∀ t, Attends [] t (f t)) :
    Attends [] s (requireManage f s) := by
  unfold requireManage
  split
  · exact .refl s
  · split
    · exact .fail _ s
    · exact hf s

/-- Choosing the default output asks for no focus. -/
theorem attends_xwSetOutput (id : Nat) : Attends [] s (xwSetOutput id s) := by
  refine attends_requireManage s fun t => ?_
  simp only
  split
  · exact .tell rfl rfl rfl rfl (by simp [Request.isFocus])
  · exact .fields rfl rfl rfl rfl

/-- Closing a window asks for no focus. -/
theorem attends_xwClose (id : Nat) : Attends [] s (xwClose id s) := by
  refine attends_requireManage s fun t => ?_
  split
  · exact .refl t
  · split
    · exact .tell rfl rfl rfl rfl (by simp [Request.isFocus])
    · exact .refl t

/-- Sending the stop asks for no focus. -/
theorem attends_sendStop : Attends [] s (sendStop s) := by
  unfold sendStop
  split
  · exact .tell rfl rfl rfl rfl (by simp [Request.isFocus])
  · exact .refl s

/-- Asking for the stop asks for no focus. -/
theorem attends_xwStop : Attends [] s (xwStop s) := by
  have hrequested : Attends [] s { s with stopRequested := true } := .fields rfl rfl rfl rfl
  unfold xwStop
  simp only
  split
  · exact hrequested.both (attends_sendStop _)
  · exact hrequested

/-- Executing an effect asks for no focus. -/
theorem attends_execute (sys : System) (effect : Effect) :
    Attends [] sys.bridge (execute sys effect).bridge := by
  cases effect with
  | closeWindow wid => exact attends_xwClose _ wid
  | stopRuntime => exact attends_xwStop _
  | reloadConfig =>
      simp only [execute, reload]
      split
      · exact .refl _
      · exact (attends_xwResetBindings _ _).both (attends_xwSetBindingMode _ _)
  | _ => exact .refl _

/-! ### The setters -/

/-- Applying fullscreen asks for no focus. -/
theorem attends_applyFullscreen (w : Window) (outputId : Nat) (fullscreen : Bool) :
    Attends [] s (applyFullscreen w outputId fullscreen s) := by
  unfold applyFullscreen
  simp only
  split
  · split
    · exact .tell rfl rfl rfl rfl (by simp [Request.isFocus])
    · exact .refl s
  · split
    · exact .tell rfl rfl rfl rfl (by simp [Request.isFocus])
    · exact .refl s

/-- Setting a window's mode asks for no focus. -/
theorem attends_xwSetMode (id outputId : Nat) (floating fullscreen : Bool) :
    Attends [] s (xwSetMode id outputId floating fullscreen s) := by
  refine attends_requireManage s fun t => ?_
  split
  · exact .refl t
  · refine Attends.both ?_ (attends_applyFullscreen _ _ _ _)
    exact .tell rfl rfl rfl rfl (by simp [Request.isFocus])

/-- Placing a window asks for no focus. -/
theorem attends_xwSetWindow (id : Nat) (visible : Bool) (x y width height : Int) (focused : Bool) :
    Attends [] s (xwSetWindow id visible x y width height focused s) := by
  refine attends_requireManage s fun t => ?_
  split
  · exact .refl t
  · refine .tell rfl rfl rfl rfl fun r hr => ?_
    rcases List.mem_append.mp hr with hr | hr <;> split at hr
    · rw [List.mem_singleton.mp hr]
      rfl
    · contradiction
    · rw [List.mem_singleton.mp hr]
      rfl
    · contradiction

/-- A placing call asks for no focus. -/
theorem attends_run (c : Placing) : Attends [] s (c.run s) :=
  (attends_xwSetMode s _ _ _ _).both (attends_xwSetWindow _ _ _ _ _ _ _ _)

/-- Placing the windows asks for no focus. -/
theorem attends_placeAll (calls : List Placing) : Attends [] s (placeAll calls s) := by
  unfold placeAll
  exact .foldl attends_run calls s

/-! ### The focus -/

/-- What is sent about the focus when it goes to window `id`. -/
def focusRequests (id : Nat) (s : State) : List Request :=
  (primarySeat s).toList.flatMap fun seat =>
    if seat.removed ∨ (!s.locked ∧ layerHasFocus s) then []
    else if (findWindow id s).any Window.visible ∧ !s.locked then [.focusWindow seat.id id]
    else [.clearFocus seat.id]

/-- Focusing sends its focus requests and changes nothing they depend on. -/
theorem attends_xwFocus {s : State} (hs : Placeable s) (id : Nat) :
    Attends (focusRequests id s) s (xwFocus id s) := by
  have hsent : ∀ r : Request, r.isFocus = true → Attends [r] s (send [r] s) := by
    intro r hr
    refine ⟨rfl, rfl, rfl, ?_⟩
    simp [focusSent, send, hr]
  rw [xwFocus, requireManage_eq hs, focusRequests]
  cases hprimary : primarySeat s with
  | none => exact .refl s
  | some seat =>
      simp only [Option.toList_some, List.flatMap_singleton]
      split
      · exact .refl s
      · cases hw : findWindow id s with
        | none => exact hsent _ rfl
        | some w =>
            simp only [Option.any_some, (findWindow_some hw).2.1]
            split
            · exact hsent _ rfl
            · exact hsent _ rfl

end Calls

end XmonadWayland.Bridge
