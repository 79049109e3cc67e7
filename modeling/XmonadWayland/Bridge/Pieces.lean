import Mathlib.Logic.Relation
import XmonadWayland.System

/-!
# XmonadWayland.Bridge.Pieces

What the compositor's callbacks do to the bridge, said once.  A callback that creates no
record is made of pieces: a flag, a report about one record, input that is queued, a request
to the layer shell, a failure.  What every piece keeps, every such callback keeps
(`listen_pieces`).
-/

namespace XmonadWayland.Bridge

/-! ## Reports -/

/-- What the setters make of a record, and whether there is a node to place. -/
structure Stance where
  id : Nat
  node : Bool
  visible : Bool
  focused : Bool
  floating : Bool
  exitedFullscreen : Bool
  fullscreenOutput : Nat
  x : Int
  y : Int
  width : Int
  height : Int
  border : Int

def Window.stance (w : Window) : Stance where
  id := w.id
  node := w.node
  visible := w.visible
  focused := w.focused
  floating := w.floating
  exitedFullscreen := w.exitedFullscreen
  fullscreenOutput := w.fullscreenOutput
  x := w.x
  y := w.y
  width := w.width
  height := w.height
  border := w.border

/-- Callbacks that give objects their part of the layer shell. -/
def attachesParts : Callback → Bool
  | .registryLayerShell => true
  | .managerOutput => true
  | .managerSeat => true
  | _ => false

/-- A report may close a window; it touches nothing that the setters keep of it. -/
structure WindowReport (cb : Callback) (w w' : Window) : Prop where
  stance : w'.stance = w.stance
  announced : w'.announced = w.announced
  configured : w'.configured = w.configured
  closed : w.closed = true → w'.closed = true
  kept : (∀ id, cb ≠ .windowClosed id) → w'.closed = w.closed

namespace WindowReport

variable {cb : Callback} {w w' : Window}

/-- A report keeps the window's id. -/
theorem id (h : WindowReport cb w w') : w'.id = w.id := congrArg Stance.id h.stance

/-- It keeps its node. -/
theorem node (h : WindowReport cb w w') : w'.node = w.node := congrArg Stance.node h.stance

/-- It keeps whether the window is shown. -/
theorem visible (h : WindowReport cb w w') : w'.visible = w.visible :=
  congrArg Stance.visible h.stance

/-- It keeps the output the window fills. -/
theorem fullscreenOutput (h : WindowReport cb w w') : w'.fullscreenOutput = w.fullscreenOutput :=
  congrArg Stance.fullscreenOutput h.stance

theorem exitedFullscreen (h : WindowReport cb w w') : w'.exitedFullscreen = w.exitedFullscreen :=
  congrArg Stance.exitedFullscreen h.stance

end WindowReport

/-- Geometry that changes is marked dirty. -/
structure OutputReport (cb : Callback) (o o' : Output) : Prop where
  id : o'.id = o.id
  announced : o'.announced = o.announced
  removed : o.removed = true → o'.removed = true
  geometry : o'.dirty = true
    ∨ (o'.dirty, o'.x, o'.y, o'.width, o'.height, o'.hasPosition, o'.hasDimensions)
      = (o.dirty, o.x, o.y, o.width, o.height, o.hasPosition, o.hasDimensions)
  layer : attachesParts cb = false → o'.layer = o.layer
  kept : (∀ id, cb ≠ .outputRemoved id) → o'.removed = o.removed

/-- The bindings are not the compositor's. -/
structure SeatReport (cb : Callback) (x x' : Seat) : Prop where
  id : x'.id = x.id
  bindings : x'.bindings = x.bindings
  pointerBindings : x'.pointerBindings = x.pointerBindings
  configured : x'.configured = x.configured
  removed : x.removed = true → x'.removed = true
  layer : attachesParts cb = false → x'.layer = x.layer
  kept : (∀ id, cb ≠ .seatRemoved id) → x'.removed = x.removed

/-- Only flags differ; a change of the lock is marked. -/
structure Flagged (s s' : State) : Prop where
  windows : s'.windows = s.windows
  outputs : s'.outputs = s.outputs
  seats : s'.seats = s.seats
  primary : s'.primary = s.primary
  input : s'.input = s.input
  phase : s'.phase = s.phase
  nextId : s'.nextId = s.nextId
  operation : (s'.pointerSeat, s'.pointerWindow, s'.pointerEdges)
    = (s.pointerSeat, s.pointerWindow, s.pointerEdges)
  failed : s'.failed = s.failed
  issued : s'.issued = s.issued
  failures : s'.failures = s.failures
  requests : s'.requests = s.requests
  lock : s'.lockChanged = true ∨ s'.lockChanged = s.lockChanged ∧ s'.locked = s.locked
  stopSent : s'.stopSent = s.stopSent
  ends : s'.running = s.running ∧ s'.finished = s.finished ∨ s'.finished = true

/-- Input a callback may queue: an operation while there is none, a press of a binding that
the seat has. -/
structure Queueable (cb : Callback) (s : State) (event : Input) : Prop where
  pointer : event.kind = .pointer → s.pointerSeat = 0 ∧ event.argument = int32 event.seatId
  binding : event.kind = .binding → cb = .bindingPressed event.seatId event.id
    ∧ ∃ seat ∈ s.seats, seat.id = event.seatId ∧ ∃ binding ∈ seat.bindings, binding.index = event.id

def Request.isLayer : Request → Bool
  | .getLayerOutput _ => true
  | .getLayerSeat _ => true
  | _ => false

inductive Piece (cb : Callback) (s : State) : State → Prop
  | flags (s' : State) : Flagged s s' → Piece cb s s'
  | window (id : Nat) (f : Window → Window) : (∀ w, WindowReport cb w (f w)) →
      Piece cb s (modifyWindow id f s)
  | output (id : Nat) (f : Output → Output) : (∀ o, OutputReport cb o (f o)) →
      Piece cb s (modifyOutput id f s)
  | seat (id : Nat) (f : Seat → Seat) : (∀ x, SeatReport cb x (f x)) → Piece cb s (modifySeat id f s)
  | queue (event : Input) : Queueable cb s event → Piece cb s (enqueue event s)
  | attach (request : Request) : attachesParts cb = true → request.isLayer = true →
      Piece cb s (send [request] s)
  | failure (message : String) : message ≠ cannotReplace → Piece cb s (fail message s)

/-- One piece after another. -/
abbrev Pieces (cb : Callback) : State → State → Prop := Relation.ReflTransGen (Piece cb)

namespace Pieces

variable {cb : Callback} {s s' : State}

/-- What every piece keeps. -/
theorem keeps {R : State → State → Prop} (hrefl : ∀ s, R s s)
    (htrans : ∀ {s s' s''}, R s s' → R s' s'' → R s s'')
    (hpiece : ∀ {s s'}, Piece cb s s' → R s s') (h : Pieces cb s s') : R s s' := by
  induction h with
  | refl => exact hrefl s
  | tail _ hlast ih => exact htrans ih (hpiece hlast)

/-- Setting flags is one piece. -/
theorem flags (h : Flagged s s') : Pieces cb s s' := .single (.flags s' h)

/-- Cancelling the batch is a piece. -/
theorem cancelBatch (s : State) : Pieces cb s (cancelBatch s) :=
  flags ⟨rfl, rfl, rfl, rfl, rfl, rfl, rfl, rfl, rfl, rfl, rfl, rfl, Or.inr ⟨rfl, rfl⟩,
        rfl, Or.inl ⟨rfl, rfl⟩⟩

/-- A report about a window is a piece. -/
theorem window (id : Nat) {f : Window → Window} (hf : ∀ w, WindowReport cb w (f w)) (s : State) :
    Pieces cb s (modifyWindow id f s) := .single (.window id f hf)

/-- A report about a seat is a piece. -/
theorem seat (id : Nat) {f : Seat → Seat} (hf : ∀ x, SeatReport cb x (f x)) (s : State) :
    Pieces cb s (modifySeat id f s) := .single (.seat id f hf)

/-- A failure is a piece. -/
theorem failure {message : String} (h : message ≠ cannotReplace) (s : State) :
    Pieces cb s (fail message s) := .single (.failure message h)

/-- A value of an output, which may cancel the batch. -/
theorem output (id : Nat) {f : Output → Output} (changes : Bool) (hf : ∀ o, OutputReport cb o (f o))
    (s : State) : Pieces cb s (modifyOutput id f (if changes then Bridge.cancelBatch s else s)) := by
  refine Relation.ReflTransGen.tail ?_ (.output id f hf)
  split
  · exact cancelBatch s
  · exact .refl

/-- What is done for a seat is made of pieces when it is for every seat. -/
theorem withSeat {id : Nat} {f : Seat → State → State}
    (h : ∀ seat ∈ s.seats, seat.id = id → Pieces cb s (f seat s)) :
    Pieces cb s (withSeat id f s) := by
  unfold Bridge.withSeat
  split
  · next seat hfind =>
    exact h seat (List.mem_of_find?_eq_some hfind) (of_decide_eq_true (List.find?_some hfind :))
  · exact .refl

theorem foldl {f : State → Nat → State} (hf : ∀ s id, Pieces cb s (f s id)) (ids : List Nat)
    (s : State) : Pieces cb s (ids.foldl f s) :=
  List.foldlRecOn (motive := fun t => Pieces cb s t) ids f .refl fun t ht id _ => ht.trans (hf t id)

/-- Queueing a press is made of pieces. -/
theorem queuePointer (seat : Seat) (window edges : Nat) (s : State) :
    Pieces cb s (queuePointer seat window edges s) := by
  unfold Bridge.queuePointer
  split
  · exact .refl
  · next h =>
    simp only [not_or, not_not] at h
    exact .single (.queue _ ⟨fun _ => ⟨h.2.2.2.2.1, rfl⟩, nofun⟩)

/-- Queueing an input is made of pieces. -/
theorem queueInput {kind : InputKind} (hkind : kind ≠ .pointer) {id : Nat} {seat : Seat}
    (hbinding : kind = .binding → cb = .bindingPressed seat.id id ∧ seat ∈ s.seats
      ∧ ∃ binding ∈ seat.bindings, binding.index = id) (argument : Int) :
    Pieces cb s (queueInput kind id argument seat s) := by
  unfold Bridge.queueInput
  split
  · exact .refl
  · refine .single (.queue _ ⟨fun h => absurd h hkind, fun h => ?_⟩)
    obtain ⟨hcb, hseat, hbound⟩ := hbinding h
    exact ⟨hcb, seat, hseat, rfl, hbound⟩

/-- Attaching a layer-shell output is made of pieces. -/
theorem attachLayerOutput (h : attachesParts cb = true) (id : Nat) (s : State) :
    Pieces cb s (attachLayerOutput id s) := by
  unfold Bridge.attachLayerOutput
  split
  · refine Relation.ReflTransGen.tail (.single (.output id _ fun o => ?_)) (.attach _ h rfl)
    exact ⟨rfl, rfl, fun h => h, Or.inr rfl, fun hnot => absurd (h.symm.trans hnot) nofun,
      fun _ => rfl⟩
  · exact .refl

/-- Attaching a layer-shell seat is made of pieces. -/
theorem attachLayerSeat (h : attachesParts cb = true) (id : Nat) (s : State) :
    Pieces cb s (attachLayerSeat id s) := by
  unfold Bridge.attachLayerSeat
  split
  · refine Relation.ReflTransGen.tail (seat id (fun x => ?_) s) (.attach _ h rfl)
    exact ⟨rfl, rfl, rfl, rfl, fun h => h, fun hnot => absurd (h.symm.trans hnot) nofun,
      fun _ => rfl⟩
  · exact .refl

end Pieces

/-! ## Callbacks -/

/-- The pieces of every callback that creates nothing. -/
theorem listen_pieces {cb : Callback} (h : cb.creates = false) (s : State) :
    Pieces cb s (listen cb s) := by
  have hflags : ∀ {s' : State}, Flagged s s' → Pieces cb s s' := Pieces.flags
  have hwindow : ∀ (id : Nat) {f : Window → Window}, (∀ w, WindowReport cb w (f w)) →
      Pieces cb s (modifyWindow id f s) := fun id _ hf => Pieces.window id hf s
  have hseat : ∀ (id : Nat) {f : Seat → Seat}, (∀ x, SeatReport cb x (f x)) →
      Pieces cb s (modifySeat id f s) := fun id _ hf => Pieces.seat id hf s
  have houtput : ∀ (id : Nat) {f : Output → Output} (changes : Bool), (∀ o, OutputReport cb o (f o)) →
      Pieces cb s (modifyOutput id f (if changes then cancelBatch s else s)) :=
    fun id _ changes hf => Pieces.output id changes hf s
  cases cb with
  | registryXkb =>
      exact hflags ⟨rfl, rfl, rfl, rfl, rfl, rfl, rfl, rfl, rfl, rfl, rfl, rfl, Or.inr ⟨rfl, rfl⟩,
        rfl, Or.inl ⟨rfl, rfl⟩⟩
  | registryLayerShell =>
      simp only [listen, registryLayerShell]
      split
      · exact .refl
      · have hbound : Flagged s { s with layerShell := true } :=
          ⟨rfl, rfl, rfl, rfl, rfl, rfl, rfl, rfl, rfl, rfl, rfl, rfl, Or.inr ⟨rfl, rfl⟩,
        rfl, Or.inl ⟨rfl, rfl⟩⟩
        exact ((hflags hbound).trans (Pieces.foldl (fun t id => .attachLayerOutput rfl id t) _ _)).trans
          (Pieces.foldl (fun t id => .attachLayerSeat rfl id t) _ _)
  | registryGlobalRemove => exact .failure (by decide) s
  | managerWindow => contradiction
  | managerOutput => contradiction
  | managerSeat => contradiction
  | managerLocked =>
      exact hflags ⟨rfl, rfl, rfl, rfl, rfl, rfl, rfl, rfl, rfl, rfl, rfl, rfl, Or.inl rfl, rfl,
        Or.inl ⟨rfl, rfl⟩⟩
  | managerUnlocked =>
      exact hflags ⟨rfl, rfl, rfl, rfl, rfl, rfl, rfl, rfl, rfl, rfl, rfl, rfl, Or.inl rfl, rfl,
        Or.inl ⟨rfl, rfl⟩⟩
  | managerUnavailable =>
      have hflag : Flagged s { s with unavailable := true } :=
        ⟨rfl, rfl, rfl, rfl, rfl, rfl, rfl, rfl, rfl, rfl, rfl, rfl, Or.inr ⟨rfl, rfl⟩,
        rfl, Or.inl ⟨rfl, rfl⟩⟩
      exact (hflags hflag).trans (Pieces.failure (by decide) _)
  | managerFinished =>
      exact hflags ⟨rfl, rfl, rfl, rfl, rfl, rfl, rfl, rfl, rfl, rfl, rfl, rfl, Or.inr ⟨rfl, rfl⟩,
        rfl, Or.inr rfl⟩
  | managerManageStart => exact .refl
  | managerRenderStart => exact .refl
  | windowClosed window =>
      exact hwindow window fun w =>
        ⟨rfl, rfl, rfl, fun _ => rfl, fun hother => absurd rfl (hother window)⟩
  | windowDimensions window width height =>
      simp only [listen, windowDimensions]
      split
      · exact .failure (by decide) s
      · exact hwindow window fun w => ⟨rfl, rfl, rfl, fun h => h, fun _ => rfl⟩
  | windowDimensionsHint window a b c d =>
      exact hwindow window fun w => ⟨rfl, rfl, rfl, fun h => h, fun _ => rfl⟩
  | windowAppId window text =>
      exact hwindow window fun w => ⟨rfl, rfl, rfl, fun h => h, fun _ => rfl⟩
  | windowTitle window text =>
      exact hwindow window fun w => ⟨rfl, rfl, rfl, fun h => h, fun _ => rfl⟩
  | windowParent window parent =>
      exact hwindow window fun w => ⟨rfl, rfl, rfl, fun h => h, fun _ => rfl⟩
  | windowFullscreen window =>
      exact hwindow window fun w => ⟨rfl, rfl, rfl, fun h => h, fun _ => rfl⟩
  | windowExitFullscreen window =>
      exact hwindow window fun w => ⟨rfl, rfl, rfl, fun h => h, fun _ => rfl⟩
  | windowPointerMove window seat =>
      exact .withSeat fun candidate _ _ => .queuePointer candidate window 0 s
  | windowPointerResize window seat edges =>
      simp only [listen, windowPointerResize]
      split
      · exact .refl
      · exact .withSeat fun candidate _ _ => .queuePointer candidate window edges s
  | outputRemoved output =>
      have hremoved := houtput output (f := fun o => { o with removed := true }) false
        fun o => ⟨rfl, rfl, fun _ => rfl, Or.inr rfl, fun _ => rfl,
          fun hother => absurd rfl (hother output)⟩
      exact hremoved.trans (Pieces.cancelBatch _)
  | outputPosition output x y =>
      exact houtput output _ fun o =>
        ⟨rfl, rfl, fun h => h, Or.inl rfl, fun _ => rfl, fun _ => rfl⟩
  | outputDimensions output width height =>
      simp only [listen, outputDimensions]
      split
      · exact .failure (by decide) s
      · exact houtput output _ fun o =>
        ⟨rfl, rfl, fun h => h, Or.inl rfl, fun _ => rfl, fun _ => rfl⟩
  | layerArea output x y width height =>
      exact houtput output _ fun o =>
        ⟨rfl, rfl, fun h => h, Or.inr rfl, fun _ => rfl, fun _ => rfl⟩
  | seatRemoved seat => exact hseat seat fun x =>
        ⟨rfl, rfl, rfl, rfl, fun _ => rfl, fun _ => rfl, fun hother => absurd rfl (hother seat)⟩
  | seatPointerEnter seat window => exact hseat seat fun x =>
        ⟨rfl, rfl, rfl, rfl, fun h => h, fun _ => rfl, fun _ => rfl⟩
  | seatPointerLeave seat => exact hseat seat fun x =>
        ⟨rfl, rfl, rfl, rfl, fun h => h, fun _ => rfl, fun _ => rfl⟩
  | seatWindowInteraction seat window =>
      simp only [listen, seatWindowInteraction]
      refine .withSeat fun record _ _ => ?_
      split
      · refine .queueInput (by decide) (fun hkind => ?_) 0
        contradiction
      · exact .refl
  | seatDelta seat x y =>
      simp only [listen, seatDelta]
      split
      · exact .refl
      · exact hseat seat fun x =>
        ⟨rfl, rfl, rfl, rfl, fun h => h, fun _ => rfl, fun _ => rfl⟩
  | seatOpRelease seat =>
      simp only [listen, seatOpRelease]
      split
      · exact .refl
      · exact hseat seat fun x =>
        ⟨rfl, rfl, rfl, rfl, fun h => h, fun _ => rfl, fun _ => rfl⟩
  | seatPosition seat x y => exact hseat seat fun x =>
        ⟨rfl, rfl, rfl, rfl, fun h => h, fun _ => rfl, fun _ => rfl⟩
  | layerFocusExclusive seat =>
      have hfocus := hseat seat (f := fun x => { x with layerFocus := .exclusive })
        fun x =>
        ⟨rfl, rfl, rfl, rfl, fun h => h, fun _ => rfl, fun _ => rfl⟩
      simp only [listen, layerFocusExclusive]
      split
      · exact hfocus.trans (Pieces.cancelBatch _)
      · exact hfocus
  | layerFocusNonExclusive seat => exact hseat seat fun x =>
        ⟨rfl, rfl, rfl, rfl, fun h => h, fun _ => rfl, fun _ => rfl⟩
  | layerFocusNone seat => exact hseat seat fun x =>
        ⟨rfl, rfl, rfl, rfl, fun h => h, fun _ => rfl, fun _ => rfl⟩
  | bindingPressed seat index =>
      simp only [listen, bindingPressed]
      refine .withSeat fun record hrecord hid => ?_
      split
      · next hbound => exact .queueInput (by decide) (fun _ => ⟨hid ▸ rfl, hrecord, hbound⟩) 0
      · exact .refl
  | pointerPressed seat button =>
      simp only [listen, pointerPressed]
      refine .withSeat fun record _ _ => ?_
      split
      · exact .queuePointer _ _ _ s
      · exact .refl

/-- A callback creates a window, an output or a seat, or is made of pieces. -/
theorem listen_cases {P : Callback → State → Prop} {s : State}
    (hwindow : P .managerWindow (managerWindow s)) (houtput : P .managerOutput (managerOutput s))
    (hseat : P .managerSeat (managerSeat s)) (hpieces : ∀ cb s', Pieces cb s s' → P cb s')
    (cb : Callback) : P cb (listen cb s) := by
  cases hcreates : cb.creates with
  | false => exact hpieces cb _ (listen_pieces hcreates s)
  | true =>
      cases cb with
      | managerWindow => exact hwindow
      | managerOutput => exact houtput
      | managerSeat => exact hseat
      | _ => contradiction

end XmonadWayland.Bridge
