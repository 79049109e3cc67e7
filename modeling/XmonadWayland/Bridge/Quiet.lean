import XmonadWayland.Bridge.Pieces

/-!
# XmonadWayland.Bridge.Quiet

What the functions of the bridge leave alone.  Outside creations, lifecycle and the
pointer operation itself no record appears or disappears, no id is given out, the
operation in progress stays and nothing about it is requested (`Quiet`).  Functions
called by Haskell moreover close, remove, move and queue nothing (`Quiet true`).
-/

namespace XmonadWayland.Bridge

/-! ## Steps of records -/

/-- Identity and announcement stay; a closed window stays closed. -/
structure WindowStep (still : Prop) (w w' : Window) : Prop where
  id : w'.id = w.id
  announced : w'.announced = w.announced
  closed : w.closed = true → w'.closed = true
  still : still → w'.closed = w.closed

/-- What a manage sequence publishes of an output. -/
def Output.geometry (output : Output) : Rect :=
  ⟨output.x, output.y, output.width, output.height⟩

/-- Geometry that changes is marked dirty. -/
structure OutputStep (still : Prop) (o o' : Output) : Prop where
  id : o'.id = o.id
  announced : o'.announced = o.announced
  removed : o.removed = true → o'.removed = true
  geometry : o'.dirty = true ∨ o'.dirty = o.dirty ∧ o'.geometry = o.geometry
    ∧ o'.hasPosition = o.hasPosition ∧ o'.hasDimensions = o.hasDimensions
  still : still → o' = o

structure SeatStep (still : Prop) (seat seat' : Seat) : Prop where
  id : seat'.id = seat.id
  removed : seat.removed = true → seat'.removed = true
  still : still → seat'.removed = seat.removed ∧ seat'.layerFocus = seat.layerFocus

section Steps

variable {still : Prop}

theorem WindowStep.refl (w : Window) : WindowStep still w w := ⟨rfl, rfl, fun h => h, fun _ => rfl⟩

theorem WindowStep.trans {w w' w'' : Window} (h : WindowStep still w w')
    (h' : WindowStep still w' w'') : WindowStep still w w'' :=
  ⟨h'.id.trans h.id, h'.announced.trans h.announced, fun hc => h'.closed (h.closed hc),
    fun hs => (h'.still hs).trans (h.still hs)⟩

theorem OutputStep.refl (o : Output) : OutputStep still o o :=
  ⟨rfl, rfl, fun h => h, Or.inr ⟨rfl, rfl, rfl, rfl⟩, fun _ => rfl⟩

theorem OutputStep.trans {o o' o'' : Output} (h : OutputStep still o o')
    (h' : OutputStep still o' o'') : OutputStep still o o'' := by
  refine ⟨h'.id.trans h.id, h'.announced.trans h.announced, fun hr => h'.removed (h.removed hr), ?_,
    fun hs => (h'.still hs).trans (h.still hs)⟩
  rcases h'.geometry with hd | ⟨hd, hg, hp, hm⟩
  · exact Or.inl hd
  · rw [hd, hg, hp, hm]
    exact h.geometry

theorem SeatStep.refl (seat : Seat) : SeatStep still seat seat := ⟨rfl, fun h => h, fun _ => ⟨rfl, rfl⟩⟩

theorem SeatStep.trans {x x' x'' : Seat} (h : SeatStep still x x') (h' : SeatStep still x' x'') :
    SeatStep still x x'' :=
  ⟨h'.id.trans h.id, fun hr => h'.removed (h.removed hr), fun hs =>
    ⟨(h'.still hs).1.trans (h.still hs).1, (h'.still hs).2.trans (h.still hs).2⟩⟩

end Steps

/-! ## Quiet functions -/

/-- Requests about the pointer operation. -/
def Request.isGrab : Request → Bool
  | .opStartPointer _ => true
  | .opEnd _ => true
  | .informResizeStart _ => true
  | .informResizeEnd _ => true
  | _ => false

structure Quiet (still : Prop) (s s' : State) : Prop where
  windows : ∃ f : Window → Window, (∀ w, WindowStep still w (f w)) ∧ s'.windows = s.windows.map f
  outputs : ∃ f : Output → Output, (∀ o, OutputStep still o (f o)) ∧ s'.outputs = s.outputs.map f
  seats : ∃ f : Seat → Seat, (∀ x, SeatStep still x (f x)) ∧ s'.seats = s.seats.map f
  input : ∃ extra : List Input, (∀ e ∈ extra, e.kind = .pointer →
      s.pointerSeat = 0 ∧ e.argument = int32 e.seatId) ∧ (still → extra = [])
    ∧ s'.input = s.input ++ extra
  requests : ∃ extra : List Request, (∀ r ∈ extra, r.isGrab = false)
    ∧ s'.requests = s.requests ++ extra
  issued : s'.issued = s.issued
  nextId : s'.nextId = s.nextId
  phase : s'.phase = s.phase
  primary : s'.primary = s.primary
  pointerSeat : s'.pointerSeat = s.pointerSeat
  pointerWindow : s'.pointerWindow = s.pointerWindow
  pointerEdges : s'.pointerEdges = s.pointerEdges
  locked : still → s'.locked = s.locked
  failures : cannotReplace ∈ s'.failures → cannotReplace ∈ s.failures
  failed : s.failed = true → s'.failed = true

namespace Quiet

variable {still : Prop} {s s' s'' : State}

theorem refl (s : State) : Quiet still s s where
  windows := ⟨id, fun w => WindowStep.refl w, (List.map_id _).symm⟩
  outputs := ⟨id, fun o => OutputStep.refl o, (List.map_id _).symm⟩
  seats := ⟨id, fun x => SeatStep.refl x, (List.map_id _).symm⟩
  input := ⟨[], nofun, fun _ => rfl, (List.append_nil _).symm⟩
  requests := ⟨[], nofun, (List.append_nil _).symm⟩
  issued := rfl
  nextId := rfl
  phase := rfl
  primary := rfl
  pointerSeat := rfl
  pointerWindow := rfl
  pointerEdges := rfl
  locked _ := rfl
  failures := id
  failed := id

theorem trans (h : Quiet still s s') (h' : Quiet still s' s'') : Quiet still s s'' where
  windows := by
    obtain ⟨f, hf, heq⟩ := h.windows
    obtain ⟨g, hg, heq'⟩ := h'.windows
    exact ⟨g ∘ f, fun w => (hf w).trans (hg (f w)), by rw [heq', heq, List.map_map]⟩
  outputs := by
    obtain ⟨f, hf, heq⟩ := h.outputs
    obtain ⟨g, hg, heq'⟩ := h'.outputs
    exact ⟨g ∘ f, fun o => (hf o).trans (hg (f o)), by rw [heq', heq, List.map_map]⟩
  seats := by
    obtain ⟨f, hf, heq⟩ := h.seats
    obtain ⟨g, hg, heq'⟩ := h'.seats
    exact ⟨g ∘ f, fun x => (hf x).trans (hg (f x)), by rw [heq', heq, List.map_map]⟩
  input := by
    obtain ⟨l, hl, hstill, heq⟩ := h.input
    obtain ⟨l', hl', hstill', heq'⟩ := h'.input
    refine ⟨l ++ l', fun e he hk => ?_, fun hs => by rw [hstill hs, hstill' hs]; rfl,
      by rw [heq', heq, List.append_assoc]⟩
    rcases List.mem_append.mp he with hm | hm
    · exact hl e hm hk
    · exact h.pointerSeat ▸ hl' e hm hk
  requests := by
    obtain ⟨l, hl, heq⟩ := h.requests
    obtain ⟨l', hl', heq'⟩ := h'.requests
    exact ⟨l ++ l', fun r hr => (List.mem_append.mp hr).elim (hl r) (hl' r),
      by rw [heq', heq, List.append_assoc]⟩
  issued := h'.issued.trans h.issued
  nextId := h'.nextId.trans h.nextId
  phase := h'.phase.trans h.phase
  primary := h'.primary.trans h.primary
  pointerSeat := h'.pointerSeat.trans h.pointerSeat
  pointerWindow := h'.pointerWindow.trans h.pointerWindow
  pointerEdges := h'.pointerEdges.trans h.pointerEdges
  locked hs := (h'.locked hs).trans (h.locked hs)
  failures hf := h.failures (h'.failures hf)
  failed hf := h'.failed (h.failed hf)

theorem foldl {α : Type} {f : State → α → State} (hf : ∀ t a, Quiet still t (f t a)) (l : List α)
    (s : State) : Quiet still s (l.foldl f s) := by
  induction l generalizing s with
  | nil => exact refl s
  | cons a l ih => exact (hf s a).trans (ih _)

end Quiet

section Building

variable {still : Prop}

/-- Only fields that nothing here is about differ. -/
theorem quiet_fields {s s' : State} (hw : s'.windows = s.windows) (ho : s'.outputs = s.outputs)
    (hx : s'.seats = s.seats) (hi : s'.input = s.input) (hr : s'.requests = s.requests)
    (hd : s'.issued = s.issued) (hn : s'.nextId = s.nextId) (hp : s'.phase = s.phase)
    (hprimary : s'.primary = s.primary)
    (hpointer : (s'.pointerSeat, s'.pointerWindow, s'.pointerEdges)
      = (s.pointerSeat, s.pointerWindow, s.pointerEdges)) (hl : still → s'.locked = s.locked)
    (hf : s'.failures = s.failures) (hfailed : s.failed = true → s'.failed = true) :
    Quiet still s s' where
  windows := ⟨id, fun w => WindowStep.refl w, by rw [hw, List.map_id]⟩
  outputs := ⟨id, fun o => OutputStep.refl o, by rw [ho, List.map_id]⟩
  seats := ⟨id, fun x => SeatStep.refl x, by rw [hx, List.map_id]⟩
  input := ⟨[], nofun, fun _ => rfl, by rw [hi, List.append_nil]⟩
  requests := ⟨[], nofun, by rw [hr, List.append_nil]⟩
  issued := hd
  nextId := hn
  phase := hp
  primary := hprimary
  pointerSeat := congrArg Prod.fst hpointer
  pointerWindow := congrArg (fun t => t.2.1) hpointer
  pointerEdges := congrArg (fun t => t.2.2) hpointer
  locked := hl
  failures h := hf ▸ h
  failed := hfailed

/-- A failure with another message is quiet. -/
theorem quiet_fail {message : String} (h : message ≠ cannotReplace) (s : State) :
    Quiet still s (fail message s) := by
  have hq : Quiet still s { s with failed := true, running := false } :=
    quiet_fields rfl rfl rfl rfl rfl rfl rfl rfl rfl rfl (fun _ => rfl) rfl fun _ => rfl
  refine { hq with failures := fun hm => ?_ }
  rcases List.mem_append.mp hm with hold | hnew
  · exact hold
  · exact absurd (List.mem_singleton.mp hnew).symm h

/-- Requests that are no grab are quiet. -/
theorem quiet_send {requests : List Request} (h : ∀ r ∈ requests, r.isGrab = false) (s : State) :
    Quiet still s (send requests s) :=
  { Quiet.refl s with requests := ⟨requests, h, rfl⟩ }

/-- Rewriting a window is quiet when its step is. -/
theorem quiet_modifyWindow (id : Nat) {f : Window → Window} (h : ∀ w, WindowStep still w (f w))
    (s : State) : Quiet still s (modifyWindow id f s) := by
  refine { Quiet.refl s with windows := ⟨_, fun w => ?_, rfl⟩ }
  split
  · exact h w
  · exact WindowStep.refl w

/-- Rewriting an output is quiet when its step is. -/
theorem quiet_modifyOutput (id : Nat) {f : Output → Output} (h : ∀ o, OutputStep still o (f o))
    (s : State) : Quiet still s (modifyOutput id f s) := by
  refine { Quiet.refl s with outputs := ⟨_, fun o => ?_, rfl⟩ }
  split
  · exact h o
  · exact OutputStep.refl o

/-- Rewriting a seat is quiet when its step is. -/
theorem quiet_modifySeat (id : Nat) {f : Seat → Seat} (h : ∀ x, SeatStep still x (f x))
    (s : State) : Quiet still s (modifySeat id f s) := by
  refine { Quiet.refl s with seats := ⟨_, fun x => ?_, rfl⟩ }
  split
  · exact h x
  · exact SeatStep.refl x

/-- Queueing an event is quiet. -/
theorem quiet_enqueue {event : Input} {s : State}
    (h : event.kind = .pointer → s.pointerSeat = 0 ∧ event.argument = int32 event.seatId)
    (hstill : ¬still) : Quiet still s (enqueue event s) := by
  refine { Quiet.refl s with
    input := ⟨[event], fun e he => ?_, fun hs => absurd hs hstill, rfl⟩ }
  rw [List.mem_singleton.mp he]
  exact h

end Building

/-! ## Callbacks -/

/-- A report about an output is a step of it. -/
theorem OutputReport.step {cb : Callback} {o o' : Output} (h : OutputReport cb o o') : OutputStep False o o' := by
  refine ⟨h.id, h.announced, h.removed, h.geometry.imp_right fun hsame => ?_, False.elim⟩
  simp only [Prod.mk.injEq] at hsame
  obtain ⟨hdirty, hx, hy, hwidth, hheight, hposition, hdimensions⟩ := hsame
  exact ⟨hdirty, by rw [Output.geometry, hx, hy, hwidth, hheight]; rfl, hposition, hdimensions⟩

/-- A piece is quiet. -/
theorem quiet_of_piece {cb : Callback} {s s' : State} (h : Piece cb s s') : Quiet False s s' := by
  cases h with
  | flags _ h =>
      exact quiet_fields h.windows h.outputs h.seats h.input h.requests h.issued h.nextId h.phase
        h.primary h.operation False.elim h.failures fun hfailed => h.failed ▸ hfailed
  | window id f hf =>
      exact quiet_modifyWindow id
        (fun w => ⟨(hf w).id, (hf w).announced, (hf w).closed, False.elim⟩) s
  | output id f hf => exact quiet_modifyOutput id (fun o => (hf o).step) s
  | seat id f hf =>
      exact quiet_modifySeat id (fun x => ⟨(hf x).id, (hf x).removed, False.elim⟩) s
  | queue event h => exact quiet_enqueue h.pointer id
  | attach request _ h =>
      refine quiet_send (fun r hr => ?_) s
      rw [List.mem_singleton.mp hr]
      cases request <;> first | rfl | contradiction
  | failure message h => exact quiet_fail h s

/-- So is a sequence of pieces. -/
theorem quiet_of_pieces {cb : Callback} {s s' : State} (h : Pieces cb s s') : Quiet False s s' :=
  h.keeps Quiet.refl Quiet.trans quiet_of_piece

theorem quiet_attachLayerOutput (id : Nat) (s : State) : Quiet False s (attachLayerOutput id s) :=
  quiet_of_pieces (Pieces.attachLayerOutput rfl id s : Pieces .managerOutput s _)

theorem quiet_attachLayerSeat (id : Nat) (s : State) : Quiet False s (attachLayerSeat id s) :=
  quiet_of_pieces (Pieces.attachLayerSeat rfl id s : Pieces .managerSeat s _)

/-- A callback creates a window, an output or a seat, or is quiet. -/
theorem listen_induction {P : State → Prop} {s : State} (hwindow : P (managerWindow s))
    (houtput : P (managerOutput s)) (hseat : P (managerSeat s))
    (hquiet : ∀ s', Quiet False s s' → P s') (cb : Callback) : P (listen cb s) :=
  listen_cases (P := fun _ => P) hwindow houtput hseat
    (fun _ s' hpieces => hquiet s' (quiet_of_pieces hpieces)) cb

/-! ## Functions called by Haskell -/

/-- Changes to the bindings of a seat. -/
theorem quiet_modifyBindings (id : Nat) {f : Seat → Seat}
    (h : ∀ x, (f x).id = x.id ∧ (f x).removed = x.removed ∧ (f x).layerFocus = x.layerFocus)
    (s : State) : Quiet True s (modifySeat id f s) :=
  quiet_modifySeat id (fun x => ⟨(h x).1, fun hr => (h x).2.1.trans hr, fun _ => (h x).2⟩) s

/-- Adding a binding is quiet. -/
theorem quiet_xwAddBinding (keysym modifiers index mode : Nat) (s : State) :
    Quiet True s (xwAddBinding keysym modifiers index mode s) := by
  unfold xwAddBinding
  split
  · split
    · exact quiet_fail (by decide) s
    · refine Quiet.trans (quiet_modifyBindings _ ?_ s) (quiet_send ?_ _)
      · exact fun _ => ⟨rfl, rfl, rfl⟩
      · simp [Request.isGrab]
  · exact quiet_fail (by decide) s

/-- Registering the key table is quiet. -/
theorem quiet_xwConfigureBindings (cfg : Config) (s : State) :
    Quiet True s (xwConfigureBindings cfg s) :=
  Quiet.foldl (fun t _ => quiet_xwAddBinding _ _ _ _ t) _ s

/-- Configuring a seat is quiet. -/
theorem quiet_configureSeat (cfg : Config) (seat : Seat) (s : State) :
    Quiet True s (configureSeat cfg seat s) := by
  unfold configureSeat
  refine Quiet.trans (Quiet.trans (Quiet.trans (quiet_modifyBindings _ ?_ s) (quiet_send ?_ _))
    (quiet_xwConfigureBindings cfg _)) (quiet_modifyBindings _ ?_ _)
  · exact fun _ => ⟨rfl, rfl, rfl⟩
  · intro r hr
    obtain ⟨button, -, rfl⟩ := List.mem_map.mp hr
    rfl
  · exact fun _ => ⟨rfl, rfl, rfl⟩

/-- Switching bindings on and off is no grab. -/
theorem isGrab_switchRequests (seat : Seat) (key : Binding → Bool) (pointer : Bool) :
    ∀ r ∈ switchRequests seat key pointer, r.isGrab = false := by
  intro r hr
  rcases List.mem_append.mp hr with hr | hr
  · obtain ⟨b, -, rfl⟩ := List.mem_map.mp hr
    split <;> rfl
  · obtain ⟨b, -, rfl⟩ := List.mem_map.mp hr
    split <;> rfl

/-- Switching the binding mode is quiet. -/
theorem quiet_xwSetBindingMode (mode : Nat) (s : State) :
    Quiet True s (xwSetBindingMode mode s) := by
  unfold xwSetBindingMode
  split
  · exact quiet_fail (by decide) s
  · have hmode : Quiet True s { s with bindingMode := mode } :=
      quiet_fields rfl rfl rfl rfl rfl rfl rfl rfl rfl rfl (fun _ => rfl) rfl fun h => h
    simp only
    split
    · exact hmode
    · refine Quiet.trans (Quiet.trans hmode (quiet_modifyBindings _ ?_ _))
        (quiet_send (isGrab_switchRequests _ _ _) _)
      exact fun _ => ⟨rfl, rfl, rfl⟩

/-- Resetting the bindings is quiet. -/
theorem quiet_xwResetBindings (cfg : Config) (s : State) :
    Quiet True s (xwResetBindings cfg s) := by
  unfold xwResetBindings
  split
  · exact quiet_fail (by decide) s
  · split
    · exact Quiet.refl s
    · refine Quiet.trans ?_ (quiet_xwSetBindingMode _ _)
      refine Quiet.trans ?_ (quiet_configureSeat cfg _ _)
      refine Quiet.trans (quiet_modifyBindings _ ?_ s) (quiet_send ?_ _)
      · exact fun _ => ⟨rfl, rfl, rfl⟩
      · simp [Request.isGrab]

/-- The phase check is quiet when its body is. -/
theorem quiet_requireManage {f : State → State} (h : ∀ t, Quiet True t (f t)) (s : State) :
    Quiet True s (requireManage f s) := by
  unfold requireManage
  split
  · exact Quiet.refl s
  · split
    · exact quiet_fail (by decide) s
    · exact h s

/-- Restoring is a step of the window. -/
theorem windowStep_restored (w : Window) : WindowStep True w w.restored := by
  unfold Window.restored
  split
  · exact ⟨rfl, rfl, fun h => h, fun _ => rfl⟩
  · exact WindowStep.refl w

/-- Placing a window is quiet. -/
theorem quiet_xwSetWindow (id : Nat) (visible : Bool) (x y width height : Int) (focused : Bool)
    (s : State) : Quiet True s (xwSetWindow id visible x y width height focused s) := by
  refine quiet_requireManage (fun t => ?_) s
  split
  · exact Quiet.refl t
  · refine (quiet_modifyWindow id (fun w => ?_) t).trans (quiet_send ?_ _)
    · have hplaced : WindowStep True w
          (w.placed visible x y width height (focused && !layerHasFocus t)) :=
        ⟨rfl, rfl, fun h => h, fun _ => rfl⟩
      exact hplaced.trans (windowStep_restored _)
    · intro r hr
      rcases List.mem_append.mp hr with hr | hr <;> split at hr <;> simp_all [Request.isGrab]

theorem quiet_xwSetOutput (id : Nat) (s : State) : Quiet True s (xwSetOutput id s) := by
  refine quiet_requireManage (fun t => ?_) s
  have hpicker : Quiet True t { t with pickerOutputId := id } :=
    quiet_fields rfl rfl rfl rfl rfl rfl rfl rfl rfl rfl (fun _ => rfl) rfl fun h => h
  simp only
  split
  · exact hpicker.trans (quiet_send (by simp [Request.isGrab]) _)
  · exact hpicker

/-- A change of a window that leaves identity and life alone, with its requests. -/
theorem quiet_tellWindow (id : Nat) {f : Window → Window} {requests : List Request} (s : State)
    (hf : ∀ w, (f w).id = w.id ∧ (f w).announced = w.announced ∧ (f w).closed = w.closed)
    (hr : ∀ r ∈ requests, r.isGrab = false) :
    Quiet True s (send requests (modifyWindow id f s)) := by
  refine (quiet_modifyWindow id (fun w => ?_) s).trans (quiet_send hr _)
  obtain ⟨hid, hannounced, hclosed⟩ := hf w
  exact ⟨hid, hannounced, fun hc => hclosed.trans hc, fun _ => hclosed⟩

theorem quiet_applyFullscreen (w : Window) (outputId : Nat) (fullscreen : Bool) (s : State) :
    Quiet True s (applyFullscreen w outputId fullscreen s) := by
  unfold applyFullscreen
  simp only
  split
  · split
    · exact quiet_tellWindow w.id s (fun _ => ⟨rfl, rfl, rfl⟩) (by simp [Request.isGrab])
    · exact Quiet.refl s
  · split
    · exact quiet_tellWindow w.id s (fun _ => ⟨rfl, rfl, rfl⟩) (by simp [Request.isGrab])
    · exact Quiet.refl s

/-- Setting a window's mode is quiet. -/
theorem quiet_xwSetMode (id outputId : Nat) (floating fullscreen : Bool) (s : State) :
    Quiet True s (xwSetMode id outputId floating fullscreen s) := by
  refine quiet_requireManage (fun t => ?_) s
  split
  · exact Quiet.refl t
  · refine Quiet.trans ?_ (quiet_applyFullscreen _ outputId fullscreen _)
    exact quiet_tellWindow _ t (fun _ => ⟨rfl, rfl, rfl⟩) (by simp [Request.isGrab])

theorem quiet_xwSetRenderPosition (id : Nat) (x y : Int) (s : State) :
    Quiet True s (xwSetRenderPosition id x y s) := by
  unfold xwSetRenderPosition
  split
  · exact quiet_fail (by decide) s
  · split
    · exact Quiet.refl s
    · split
      · exact Quiet.refl s
      · refine quiet_modifyWindow id (fun w => ?_) s
        exact ⟨rfl, rfl, fun h => h, fun _ => rfl⟩

/-- Focusing is quiet. -/
theorem quiet_xwFocus (id : Nat) (s : State) : Quiet True s (xwFocus id s) := by
  have hsend : ∀ (r : Request) (t : State), r.isGrab = false → Quiet True t (send [r] t) :=
    fun r t hr => quiet_send (fun r' hr' => List.mem_singleton.mp hr' ▸ hr) t
  refine quiet_requireManage (fun t => ?_) s
  split
  · exact Quiet.refl t
  · split
    · exact Quiet.refl t
    · split
      · split
        · exact hsend _ t rfl
        · exact hsend _ t rfl
      · exact hsend _ t rfl

theorem quiet_xwClose (id : Nat) (s : State) : Quiet True s (xwClose id s) := by
  refine quiet_requireManage (fun t => ?_) s
  split
  · exact Quiet.refl t
  · split
    · exact quiet_send (by simp [Request.isGrab]) t
    · exact Quiet.refl t

theorem quiet_sendStop (s : State) : Quiet True s (sendStop s) := by
  unfold sendStop
  split
  · have hsent : Quiet True s { s with stopSent := true } :=
      quiet_fields rfl rfl rfl rfl rfl rfl rfl rfl rfl rfl (fun _ => rfl) rfl fun h => h
    exact hsent.trans (quiet_send (by simp [Request.isGrab]) _)
  · exact Quiet.refl s

theorem quiet_xwStop (s : State) : Quiet True s (xwStop s) := by
  have hrequested : Quiet True s { s with stopRequested := true } :=
    quiet_fields rfl rfl rfl rfl rfl rfl rfl rfl rfl rfl (fun _ => rfl) rfl fun h => h
  unfold xwStop
  simp only
  split
  · exact hrequested.trans (quiet_sendStop _)
  · exact hrequested

end XmonadWayland.Bridge
