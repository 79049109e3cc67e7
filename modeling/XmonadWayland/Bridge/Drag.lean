import XmonadWayland.Bridge.Agreement
import XmonadWayland.Policy.Drag

/-!
# XmonadWayland.Bridge.Drag

The motion of a seat between two manage sequences.  The bridge keeps the newest delta and
whether the button was released, nothing else; no other callback reads or writes them, so
a batch of callbacks comes to the same as the other callbacks followed by one update of
the seat.  The next manage sequence delivers the delta before the release.
-/

namespace XmonadWayland.Bridge

/-! ## Motion of a seat -/

/-- What a batch tells about the motion of a seat: the newest delta, and a release. -/
structure Motion where
  delta : Option (Int × Int) := none
  release : Bool := false

def Motion.apply (motion : Motion) (seat : Seat) : Seat :=
  { seat with
    deltaX := (motion.delta.map Prod.fst).getD seat.deltaX
    deltaY := (motion.delta.map Prod.snd).getD seat.deltaY
    deltaPending := motion.delta.isSome || seat.deltaPending
    releasePending := motion.release || seat.releasePending }

/-- A later motion. -/
def Motion.followed (motion later : Motion) : Motion :=
  ⟨later.delta.or motion.delta, motion.release || later.release⟩

/-- What a callback tells about the motion of the seat. -/
def motionIn (sid : Nat) : Callback → Option Motion
  | .seatDelta seat x y => if seat = sid then some ⟨some (x, y), false⟩ else none
  | .seatOpRelease seat => if seat = sid then some ⟨none, true⟩ else none
  | _ => none

/-- The cumulative delta a callback reports for the seat. -/
def deltaIn (sid : Nat) : Callback → Option (Int × Int)
  | .seatDelta seat x y => if seat = sid then some (x, y) else none
  | _ => none

/-- The newest delta a batch reports for the seat. -/
def newestDelta (sid : Nat) (cbs : List Callback) : Option (Int × Int) :=
  (cbs.filterMap (deltaIn sid)).getLast?

/-- The callbacks of a batch that are not about the motion of the seat. -/
def othersThan (sid : Nat) (cbs : List Callback) : List Callback :=
  cbs.filter fun cb => (motionIn sid cb).isNone

/-- What a batch tells about the motion of the seat. -/
def motionOf (sid : Nat) (cbs : List Callback) : Motion :=
  ⟨newestDelta sid cbs, decide (.seatOpRelease sid ∈ cbs)⟩

/-- A callback about other things adds no motion. -/
theorem motionOf_other {sid : Nat} {cb : Callback} (h : motionIn sid cb = none)
    (cbs : List Callback) : motionOf sid (cbs ++ [cb]) = motionOf sid cbs := by
  have hdelta : deltaIn sid cb = none := by
    cases cb with
    | seatDelta seat x y =>
        have hne : seat ≠ sid := fun he => by simp [motionIn, he] at h
        exact if_neg hne
    | _ => rfl
  have hrelease : Callback.seatOpRelease sid ≠ cb := by
    rintro rfl
    simp [motionIn] at h
  simp [motionOf, newestDelta, hdelta, hrelease]

/-- A motion follows what was noted before it. -/
theorem motionOf_followed {sid : Nat} {cb : Callback} {motion : Motion}
    (h : motionIn sid cb = some motion) (cbs : List Callback) :
    motionOf sid (cbs ++ [cb]) = (motionOf sid cbs).followed motion := by
  unfold motionIn at h
  split at h
  · next seat x y =>
    obtain ⟨rfl, heq⟩ := Option.ite_none_right_eq_some.mp h
    obtain rfl := Option.some.inj heq
    simp [motionOf, newestDelta, Motion.followed, deltaIn]
  · next seat =>
    obtain ⟨rfl, heq⟩ := Option.ite_none_right_eq_some.mp h
    obtain rfl := Option.some.inj heq
    simp [motionOf, newestDelta, Motion.followed, deltaIn]
  · contradiction

/-- No motion changes nothing. -/
theorem Motion.apply_none (seat : Seat) : Motion.apply {} seat = seat := rfl

/-- Two motions apply as the one they make together. -/
theorem Motion.apply_apply (motion later : Motion) (seat : Seat) :
    later.apply (motion.apply seat) = (motion.followed later).apply seat := by
  obtain ⟨delta, release⟩ := motion
  obtain ⟨delta', release'⟩ := later
  cases delta <;> cases delta' <;> cases release <;> cases release' <;>
    simp [Motion.apply, Motion.followed]

/-! ## Updates of one seat -/

/-- Two changes of a seat are one. -/
theorem modifySeat_modifySeat {id : Nat} {f g : Seat → Seat} (hf : ∀ seat, (f seat).id = seat.id)
    (s : State) : modifySeat id g (modifySeat id f s) = modifySeat id (fun seat => g (f seat)) s := by
  simp only [modifySeat, List.map_map]
  congr 1
  refine List.map_congr_left fun seat _ => ?_
  by_cases h : seat.id = id <;> simp [h, hf]

/-- Updates of seats that have nothing to do with each other. -/
theorem modifySeat_comm {id id' : Nat} {f g : Seat → Seat} (hf : ∀ seat, (f seat).id = seat.id)
    (hg : ∀ seat, (g seat).id = seat.id) (hcomm : id = id' → ∀ seat, f (g seat) = g (f seat))
    (s : State) : modifySeat id f (modifySeat id' g s) = modifySeat id' g (modifySeat id f s) := by
  simp only [modifySeat, List.map_map]
  congr 1
  refine List.map_congr_left fun seat _ => ?_
  by_cases hid : id = id'
  · subst hid
    by_cases h : seat.id = id <;> simp [h, hf, hg, hcomm rfl]
  · by_cases h : seat.id = id
    · simp [h, hf, hid]
    · by_cases h' : seat.id = id' <;> simp [h, h', hg, Ne.symm hid]

/-- Note a motion of the seat. -/
def noteMotion (sid : Nat) (motion : Motion) : State → State := modifySeat sid motion.apply

/-- Two notes are one note of both motions. -/
theorem noteMotion_noteMotion (sid : Nat) (motion later : Motion) (s : State) :
    noteMotion sid later (noteMotion sid motion s) = noteMotion sid (motion.followed later) s := by
  have hid : ∀ seat, (motion.apply seat).id = seat.id := fun _ => rfl
  rw [noteMotion, noteMotion, modifySeat_modifySeat hid]
  simp only [Motion.apply_apply]
  rfl

/-- Noting no motion changes nothing. -/
theorem noteMotion_none (sid : Nat) (s : State) : noteMotion sid {} s = s := by
  simp [noteMotion, modifySeat, Motion.apply_none]

/-- A motion commutes with the update of another field of a seat. -/
theorem modifySeat_noteMotion (id : Nat) {f : Seat → Seat} (hf : ∀ seat, (f seat).id = seat.id)
    {sid : Nat} {motion : Motion}
    (hcomm : id = sid → ∀ seat, f (motion.apply seat) = motion.apply (f seat)) (s : State) :
    modifySeat id f (noteMotion sid motion s) = noteMotion sid motion (modifySeat id f s) :=
  have hid : ∀ seat, (motion.apply seat).id = seat.id := fun _ => rfl
  modifySeat_comm hf hid hcomm s

/-! ## Other callbacks -/

section Other

variable {sid : Nat} {motion : Motion}

/-- A note changes the record of its seat only. -/
theorem seatRecord_noteMotion (id : Nat) (s : State) : seatRecord id (noteMotion sid motion s)
    = (seatRecord id s).map fun seat => if seat.id = sid then motion.apply seat else seat := by
  simp only [seatRecord, noteMotion, modifySeat, List.find?_map]
  congr 2
  funext seat
  by_cases h : seat.id = sid <;> simp [h, Motion.apply]

/-- A callback that reads a seat's record without its motion. -/
theorem withSeat_noteMotion {id : Nat} {g : Seat → State → State}
    (hread : ∀ seat s, g (motion.apply seat) s = g seat s)
    (hg : ∀ seat s, g seat (noteMotion sid motion s) = noteMotion sid motion (g seat s)) (s : State) :
    withSeat id g (noteMotion sid motion s) = noteMotion sid motion (withSeat id g s) := by
  unfold withSeat
  rw [seatRecord_noteMotion]
  cases seatRecord id s with
  | none => rfl
  | some seat =>
      simp only [Option.map_some]
      rw [← hg]
      split
      · exact hread seat _
      · rfl

/-- Queueing a press commutes with a note. -/
theorem queuePointer_noteMotion (seat : Seat) (window edges : Nat) (s : State) :
    queuePointer seat window edges (noteMotion sid motion s)
      = noteMotion sid motion (queuePointer seat window edges s) := by
  unfold queuePointer
  rw [apply_ite (noteMotion sid motion)]
  rfl

/-- Queueing an input commutes with a note. -/
theorem queueInput_noteMotion (kind : InputKind) (id : Nat) (argument : Int) (seat : Seat)
    (s : State) : queueInput kind id argument seat (noteMotion sid motion s)
      = noteMotion sid motion (queueInput kind id argument seat s) := by
  unfold queueInput
  rw [apply_ite (noteMotion sid motion)]
  rfl

/-- Attaching a layer-shell output commutes with a note. -/
theorem attachLayerOutput_noteMotion (id : Nat) (s : State) :
    attachLayerOutput id (noteMotion sid motion s)
      = noteMotion sid motion (attachLayerOutput id s) := by
  unfold attachLayerOutput
  rw [apply_ite (noteMotion sid motion)]
  rfl

/-- Attaching a layer-shell seat commutes with a note. -/
theorem attachLayerSeat_noteMotion (id : Nat) (s : State) :
    attachLayerSeat id (noteMotion sid motion s) = noteMotion sid motion (attachLayerSeat id s) := by
  have hany : ((noteMotion sid motion s).seats.any fun seat =>
        seat.id = id && !seat.layer && !seat.removed)
      = s.seats.any fun seat => seat.id = id && !seat.layer && !seat.removed := by
    simp only [noteMotion, modifySeat, List.any_map]
    congr 1
    funext seat
    by_cases h : seat.id = sid <;> simp [h, Motion.apply]
  unfold attachLayerSeat
  rw [hany, modifySeat_noteMotion id (fun _ => by rfl) fun _ _ => by rfl,
    apply_ite (noteMotion sid motion)]
  rfl

/-- Steps that commute with a note commute one after the other. -/
theorem foldl_noteMotion {α : Type} {f : State → α → State}
    (hf : ∀ s x, f (noteMotion sid motion s) x = noteMotion sid motion (f s x)) (xs : List α)
    (s : State) : xs.foldl f (noteMotion sid motion s) = noteMotion sid motion (xs.foldl f s) := by
  induction xs generalizing s with
  | nil => rfl
  | cons x xs ih => rw [List.foldl_cons, hf, ih, List.foldl_cons]

/-- Binding the layer shell commutes with a note. -/
theorem registryLayerShell_noteMotion (s : State) :
    registryLayerShell (noteMotion sid motion s) = noteMotion sid motion (registryLayerShell s) := by
  have hseats : ∀ t : State, ((noteMotion sid motion t).seats.map Seat.id).foldl
      (fun s id => attachLayerSeat id s) (noteMotion sid motion t)
        = noteMotion sid motion ((t.seats.map Seat.id).foldl (fun s id => attachLayerSeat id s) t) := by
    intro t
    have hids : (noteMotion sid motion t).seats.map Seat.id = t.seats.map Seat.id := by
      simp only [noteMotion, modifySeat, List.map_map]
      refine List.map_congr_left fun seat _ => ?_
      by_cases h : seat.id = sid <;> simp [h, Motion.apply]
    rw [hids]
    exact foldl_noteMotion (fun s id => attachLayerSeat_noteMotion id s) _ t
  have houtputs : (s.outputs.map Output.id).foldl (fun s id => attachLayerOutput id s)
      (noteMotion sid motion { s with layerShell := true })
        = noteMotion sid motion ((s.outputs.map Output.id).foldl (fun s id => attachLayerOutput id s)
          { s with layerShell := true }) :=
    foldl_noteMotion (fun s id => attachLayerOutput_noteMotion id s) _ _
  unfold registryLayerShell
  rw [apply_ite (noteMotion sid motion)]
  refine if_congr Iff.rfl rfl ?_
  rw [← hseats, ← houtputs]
  rfl

/-- Dealing an id commutes with a note. -/
theorem newId_noteMotion (s : State) :
    newId (noteMotion sid motion s) = ((newId s).1, noteMotion sid motion (newId s).2) := by
  unfold newId
  split
  · next h => rw [if_pos (show s.nextId = 4294967295 from h)]; rfl
  · next h => rw [if_neg (show ¬s.nextId = 4294967295 from h)]; rfl

/-- A new seat is another one. -/
theorem managerSeat_noteMotion {s : State} (hid : sid ≠ 0 ∧ sid ≤ s.nextId) :
    managerSeat (noteMotion sid motion s) = noteMotion sid motion (managerSeat s) := by
  have hne : (newId s).1 ≠ sid := by
    unfold newId
    split
    · exact Ne.symm hid.1
    · exact fun h => by simp only at h; omega
  unfold managerSeat
  rw [newId_noteMotion]
  generalize newId s = new at hne ⊢
  obtain ⟨id, s'⟩ := new
  simp only
  rw [← attachLayerSeat_noteMotion]
  simp only [noteMotion, modifySeat, List.map_append, List.map_cons, List.map_nil, if_neg hne]
  rfl

/-- Cancelling the batch commutes with a note. -/
theorem cancelBatch_noteMotion (c : Prop) [Decidable c] (s : State) :
    (if c then cancelBatch (noteMotion sid motion s) else noteMotion sid motion s)
      = noteMotion sid motion (if c then cancelBatch s else s) := by
  rw [apply_ite (noteMotion sid motion)]
  rfl

/-- Other callbacks neither read nor write the motion of the seat. -/
theorem listen_noteMotion {cb : Callback} (hcb : motionIn sid cb = none) {s : State}
    (hid : sid ≠ 0 ∧ sid ≤ s.nextId) :
    listen cb (noteMotion sid motion s) = noteMotion sid motion (listen cb s) := by
  have hpress : ∀ (c : Prop) [Decidable c] (seat : Seat) (window edges : Nat) (s : State),
      (if c then queuePointer seat window edges (noteMotion sid motion s)
        else noteMotion sid motion s)
      = noteMotion sid motion (if c then queuePointer seat window edges s else s) := by
    intro c _ seat window edges s
    rw [apply_ite (noteMotion sid motion), queuePointer_noteMotion]
  -- Two states are compared here, so the pieces of a callback are not enough: each has to commute.
  cases cb with
  | managerSeat => exact managerSeat_noteMotion hid
  | registryLayerShell => exact registryLayerShell_noteMotion s
  | managerWindow =>
      simp only [listen, managerWindow, newId_noteMotion]
      rfl
  | managerOutput =>
      simp only [listen, managerOutput, newId_noteMotion]
      exact attachLayerOutput_noteMotion (newId s).1
        { (newId s).2 with outputs := (newId s).2.outputs ++ [{ id := (newId s).1 }] }
  | windowDimensions window width height =>
      simp only [listen, Bridge.windowDimensions]
      rw [apply_ite (noteMotion sid motion)]
      rfl
  | windowPointerMove window seat =>
      exact withSeat_noteMotion (fun _ _ => by rfl) (fun seat s => queuePointer_noteMotion seat _ _ s) s
  | windowPointerResize window seat edges =>
      simp only [listen, Bridge.windowPointerResize]
      rw [apply_ite (noteMotion sid motion)]
      exact if_congr Iff.rfl rfl (withSeat_noteMotion (fun _ _ => by rfl)
        (fun seat s => queuePointer_noteMotion seat _ _ s) s)
  | outputPosition output x y =>
      exact congrArg (modifyOutput output _) (cancelBatch_noteMotion _ s)
  | outputDimensions output width height =>
      simp only [listen, Bridge.outputDimensions]
      rw [apply_ite (noteMotion sid motion)]
      exact if_congr Iff.rfl rfl (congrArg (modifyOutput output _) (cancelBatch_noteMotion _ s))
  | layerArea output x y width height =>
      exact congrArg (modifyOutput output _) (cancelBatch_noteMotion _ s)
  | seatRemoved seat => exact modifySeat_noteMotion seat (fun _ => by rfl) (fun _ _ => by rfl) s
  | seatPointerEnter seat window =>
      exact modifySeat_noteMotion seat (fun _ => by rfl) (fun _ _ => by rfl) s
  | seatPointerLeave seat => exact modifySeat_noteMotion seat (fun _ => by rfl) (fun _ _ => by rfl) s
  | seatWindowInteraction seat window =>
      simp only [listen, Bridge.seatWindowInteraction]
      refine withSeat_noteMotion ?_ (fun seat s => ?_) s
      · exact fun _ _ => rfl
      · have hfind : findWindow window (noteMotion sid motion s) = findWindow window s := rfl
        rw [hfind]
        split
        · exact queueInput_noteMotion _ _ _ seat s
        · rfl
  | seatDelta seat x y =>
      have hne : seat ≠ sid := fun h => by simp [motionIn, h] at hcb
      simp only [listen, Bridge.seatDelta]
      rw [apply_ite (noteMotion sid motion)]
      exact if_congr Iff.rfl rfl
        (modifySeat_noteMotion seat (fun _ => by rfl) (fun h => absurd h hne) s)
  | seatOpRelease seat =>
      have hne : seat ≠ sid := fun h => by simp [motionIn, h] at hcb
      simp only [listen, Bridge.seatOpRelease]
      rw [apply_ite (noteMotion sid motion)]
      exact if_congr Iff.rfl rfl
        (modifySeat_noteMotion seat (fun _ => by rfl) (fun h => absurd h hne) s)
  | seatPosition seat x y => exact modifySeat_noteMotion seat (fun _ => by rfl) (fun _ _ => by rfl) s
  | layerFocusExclusive seat =>
      simp only [listen, Bridge.layerFocusExclusive]
      rw [modifySeat_noteMotion seat (fun _ => by rfl) fun _ _ => by rfl]
      exact cancelBatch_noteMotion _ _
  | layerFocusNonExclusive seat => exact modifySeat_noteMotion seat (fun _ => by rfl) (fun _ _ => by rfl) s
  | layerFocusNone seat => exact modifySeat_noteMotion seat (fun _ => by rfl) (fun _ _ => by rfl) s
  | bindingPressed seat index =>
      simp only [listen, Bridge.bindingPressed]
      refine withSeat_noteMotion ?_ (fun seat s => ?_) s
      · exact fun _ _ => rfl
      · rw [apply_ite (noteMotion sid motion), queueInput_noteMotion]
  | pointerPressed seat button =>
      simp only [listen, Bridge.pointerPressed]
      refine withSeat_noteMotion ?_ (fun seat s => hpress _ seat _ _ s) s
      exact fun _ _ => rfl
  | _ => rfl

/-! ## Rendering -/

/-- Setting a render position commutes with a note. -/
theorem xwSetRenderPosition_noteMotion (id : Nat) (x y : Int) (s : State) :
    xwSetRenderPosition id x y (noteMotion sid motion s)
      = noteMotion sid motion (xwSetRenderPosition id x y s) := by
  have hfind : findWindow id (noteMotion sid motion s) = findWindow id s := rfl
  unfold xwSetRenderPosition
  rw [apply_ite (noteMotion sid motion), hfind]
  refine if_congr Iff.rfl rfl ?_
  split
  · rfl
  · rw [apply_ite (noteMotion sid motion)]
    rfl

/-- Sending the stop commutes with a note. -/
theorem sendStop_noteMotion (s : State) :
    sendStop (noteMotion sid motion s) = noteMotion sid motion (sendStop s) := by
  unfold sendStop
  rw [apply_ite (noteMotion sid motion)]
  rfl

/-- The render callback commutes with a note. -/
theorem render_noteMotion (sys : System) : render (sys.onBridge (noteMotion sid motion))
    = (render sys).onBridge (noteMotion sid motion) := by
  have hmove : ∀ (s : State) (q : WindowId × Int × Int),
      xwSetRenderPosition q.1 (bounded q.2.1) (bounded q.2.2) (noteMotion sid motion s)
        = noteMotion sid motion (xwSetRenderPosition q.1 (bounded q.2.1) (bounded q.2.2) s) :=
    fun s q => xwSetRenderPosition_noteMotion _ _ _ s
  exact congrArg (fun s => (⟨s, (render sys).runtime⟩ : System)) (foldl_noteMotion hmove _ sys.bridge)

/-- The end of a transaction. -/
theorem finish_noteMotion {g : State → State}
    (hg : ∀ s, g (noteMotion sid motion s) = noteMotion sid motion (g s)) (s : State) :
    sendStop { (if (noteMotion sid motion s).failed then noteMotion sid motion s
        else g (noteMotion sid motion s)) with phase := .idle }
      = noteMotion sid motion (sendStop { (if s.failed then s else g s) with phase := .idle }) := by
  rw [← sendStop_noteMotion, hg]
  by_cases hf : s.failed
  · rw [if_pos hf, if_pos (show (noteMotion sid motion s).failed from hf)]
    rfl
  · rw [if_neg hf, if_neg (show ¬(noteMotion sid motion s).failed from hf)]
    rfl

/-- A note changes no ancestry. -/
theorem ancestryDepth_noteMotion (s : State) (fuel : Nat) (w : Window) :
    ancestryDepth (noteMotion sid motion s) fuel w = ancestryDepth s fuel w := by
  induction fuel generalizing w with
  | zero => rfl
  | succ fuel ih =>
      have hfind : findWindow w.parentId (noteMotion sid motion s) = findWindow w.parentId s := rfl
      unfold ancestryDepth
      rw [hfind]
      split
      · rw [ih]
      · rfl

/-- Nor the stacking requests. -/
theorem stackRequests_noteMotion (s : State) :
    stackRequests (noteMotion sid motion s) = stackRequests s := by
  have hdepth : stackingDepth (noteMotion sid motion s) = stackingDepth s :=
    funext fun w => ancestryDepth_noteMotion s _ w
  unfold stackRequests
  rw [hdepth]
  rfl

/-- A render transaction commutes with a note. -/
theorem runRender_noteMotion (sys : System) : runRender (sys.onBridge (noteMotion sid motion))
    = (runRender sys).onBridge (noteMotion sid motion) := by
  let finish : State → State := fun s =>
    { send ((renderable s).flatMap (showRequests s) ++ stackRequests s ++ [.renderFinish]) s
      with awaitingRender := false }
  have hfinish : ∀ s, finish (noteMotion sid motion s) = noteMotion sid motion (finish s) := by
    intro s
    simp only [finish, stackRequests_noteMotion]
    rfl
  let shown := (sys.onBridge fun s => { s with phase := .render }).deliverAll
    (sizeEvents sys.bridge.windows)
  have hrender : render (shown.onBridge (noteMotion sid motion))
      = (render shown).onBridge (noteMotion sid motion) := render_noteMotion shown
  have heq : ∀ t : System, runRender t
      = (render ((t.onBridge fun s => { s with phase := .render }).deliverAll
        (sizeEvents t.bridge.windows))).onBridge fun s =>
          sendStop { (if s.failed then s else finish s) with phase := .idle } := fun _ => rfl
  rw [heq, heq]
  exact (congrArg (System.onBridge fun s =>
    sendStop { (if s.failed then s else finish s) with phase := .idle }) hrender).trans
    (congrArg (fun s => (⟨s, (render shown).runtime⟩ : System)) (finish_noteMotion hfinish _))

/-- So does the callback that starts one. -/
theorem managerRenderStart_noteMotion (sys : System) :
    managerRenderStart (sys.onBridge (noteMotion sid motion))
      = (managerRenderStart sys).onBridge (noteMotion sid motion) := by
  unfold managerRenderStart
  simp only
  rw [runRender_noteMotion, apply_ite (System.onBridge (noteMotion sid motion)),
    apply_ite (System.onBridge (noteMotion sid motion))]
  rfl

end Other

/-! ## Batches -/

section Batch

variable {sid : Nat} {cbs : List Callback} {sys : System}

/-- Between two manage sequences the operation stays and ids only grow. -/
theorem tame_step {cb : Callback} (h : cb ≠ .managerManageStart) (sys : System) :
    (sys.step cb).bridge.pointerSeat = sys.bridge.pointerSeat
      ∧ sys.bridge.nextId ≤ (sys.step cb).bridge.nextId := by
  have hrender : (managerRenderStart sys).bridge.pointerSeat = sys.bridge.pointerSeat
      ∧ sys.bridge.nextId ≤ (managerRenderStart sys).bridge.nextId := by
    rcases managerRenderStart_cases sys with ⟨-, heq⟩ | ⟨message, -, heq⟩ | ⟨-, heq⟩ <;> rw [heq]
    · exact ⟨rfl, le_rfl⟩
    · exact ⟨rfl, le_rfl⟩
    · have hq := quiet_runRender sys
      exact ⟨hq.pointerSeat, hq.nextId.ge⟩
  have hlisten : ∀ cb, (sys.onBridge (listen cb)).bridge.pointerSeat = sys.bridge.pointerSeat
      ∧ sys.bridge.nextId ≤ (sys.onBridge (listen cb)).bridge.nextId :=
    fun cb => ⟨(stage_listen cb sys).tame.pointerSeat, (stage_listen cb sys).tame.nextId⟩
  cases cb with
  | managerManageStart => exact absurd rfl h
  | managerRenderStart => exact hrender
  | _ => exact hlisten _

/-- Without a manage callback the bridge's operation stays. -/
theorem tame_runSystem (h : .managerManageStart ∉ cbs) (sys : System) :
    (runSystem cbs sys).bridge.pointerSeat = sys.bridge.pointerSeat
      ∧ sys.bridge.nextId ≤ (runSystem cbs sys).bridge.nextId := by
  refine List.foldlRecOn (motive := fun t : System => t.bridge.pointerSeat = sys.bridge.pointerSeat
    ∧ sys.bridge.nextId ≤ t.bridge.nextId) cbs System.step ⟨rfl, le_rfl⟩ fun t ht cb hcb => ?_
  have hne : cb ≠ .managerManageStart := fun he => h (he ▸ hcb)
  obtain ⟨hseat, hid⟩ := tame_step hne t
  exact ⟨hseat.trans ht.1, ht.2.trans hid⟩

/-- Other callbacks may come before the motion. -/
theorem step_noteMotion {motion : Motion} {cb : Callback} (hcb : motionIn sid cb = none)
    (hne : cb ≠ .managerManageStart) (hid : sid ≠ 0 ∧ sid ≤ sys.bridge.nextId) :
    (sys.onBridge (noteMotion sid motion)).step cb
      = (sys.step cb).onBridge (noteMotion sid motion) := by
  have hlisten : (sys.onBridge (noteMotion sid motion)).onBridge (listen cb)
      = (sys.onBridge (listen cb)).onBridge (noteMotion sid motion) :=
    congrArg (fun s => (⟨s, sys.runtime⟩ : System)) (listen_noteMotion hcb hid)
  cases cb with
  | managerManageStart => exact absurd rfl hne
  | managerRenderStart => exact managerRenderStart_noteMotion sys
  | _ => exact hlisten

/-- The callbacks of a drag are a motion. -/
theorem step_motionIn {cb : Callback} {motion : Motion} (h : motionIn sid cb = some motion)
    (hseat : sys.bridge.pointerSeat = sid) :
    sys.step cb = sys.onBridge (noteMotion sid motion) := by
  unfold motionIn at h
  split at h
  · next seat x y =>
    obtain ⟨rfl, heq⟩ := Option.ite_none_right_eq_some.mp h
    obtain rfl := Option.some.inj heq
    have hkeep : ¬seat ≠ sys.bridge.pointerSeat := fun hne => hne hseat.symm
    exact congrArg (fun s => (⟨s, sys.runtime⟩ : System)) (if_neg hkeep)
  · next seat =>
    obtain ⟨rfl, heq⟩ := Option.ite_none_right_eq_some.mp h
    obtain rfl := Option.some.inj heq
    have hkeep : ¬seat ≠ sys.bridge.pointerSeat := fun hne => hne hseat.symm
    exact congrArg (fun s => (⟨s, sys.runtime⟩ : System)) (if_neg hkeep)
  · contradiction

/-- **Batches**: a batch comes to its other callbacks followed by one motion. -/
theorem runSystem_batch (h : .managerManageStart ∉ cbs) (hseat : sys.bridge.pointerSeat = sid)
    (hid : sid ≠ 0 ∧ sid ≤ sys.bridge.nextId) : runSystem cbs sys
      = (runSystem (othersThan sid cbs) sys).onBridge (noteMotion sid (motionOf sid cbs)) := by
  induction cbs using List.reverseRecOn with
  | nil => exact congrArg (fun s => (⟨s, sys.runtime⟩ : System)) (noteMotion_none sid _).symm
  | append_singleton cbs cb ih =>
      have hbefore : .managerManageStart ∉ cbs := fun hm => h (List.mem_append_left _ hm)
      have hne : cb ≠ .managerManageStart := fun he => h (by simp [he])
      have hothers : .managerManageStart ∉ othersThan sid cbs :=
        fun hm => hbefore (List.mem_of_mem_filter hm)
      obtain ⟨hkept, hgrown⟩ := tame_runSystem hothers sys
      have hrun : runSystem (cbs ++ [cb]) sys = (runSystem cbs sys).step cb := by
        simp [runSystem]
      rw [hrun, ih hbefore]
      cases hcb : motionIn sid cb with
      | none =>
          have hlast : othersThan sid (cbs ++ [cb]) = othersThan sid cbs ++ [cb] := by
            simp [othersThan, hcb]
          rw [step_noteMotion hcb hne ⟨hid.1, hid.2.trans hgrown⟩, motionOf_other hcb, hlast]
          simp [runSystem]
      | some motion =>
          have hlast : othersThan sid (cbs ++ [cb]) = othersThan sid cbs := by
            simp [othersThan, hcb]
          have hsame : ((runSystem (othersThan sid cbs) sys).onBridge
              (noteMotion sid (motionOf sid cbs))).bridge.pointerSeat = sid := hkept.trans hseat
          rw [step_motionIn hcb hsame, motionOf_followed hcb, hlast]
          exact congrArg (fun s => (⟨s, _⟩ : System)) (noteMotion_noteMotion _ _ _ _)

/-- Without an operation of the seat its motion is ignored. -/
theorem runSystem_ignored (h : .managerManageStart ∉ cbs) (hseat : sys.bridge.pointerSeat ≠ sid) :
    runSystem cbs sys = runSystem (othersThan sid cbs) sys := by
  induction cbs using List.reverseRecOn with
  | nil => rfl
  | append_singleton cbs cb ih =>
      have hbefore : .managerManageStart ∉ cbs := fun hm => h (List.mem_append_left _ hm)
      have hothers : .managerManageStart ∉ othersThan sid cbs :=
        fun hm => hbefore (List.mem_of_mem_filter hm)
      have hkept : (runSystem (othersThan sid cbs) sys).bridge.pointerSeat ≠ sid :=
        fun he => hseat ((tame_runSystem hothers sys).1.symm.trans he)
      have hrun : runSystem (cbs ++ [cb]) sys = (runSystem cbs sys).step cb := by
        simp [runSystem]
      rw [hrun, ih hbefore]
      cases hcb : motionIn sid cb with
      | none => simp [runSystem, othersThan, hcb]
      | some motion =>
          have hlast : othersThan sid (cbs ++ [cb]) = othersThan sid cbs := by
            simp [othersThan, hcb]
          rw [hlast]
          unfold motionIn at hcb
          split at hcb
          · obtain ⟨rfl, -⟩ := Option.ite_none_right_eq_some.mp hcb
            exact congrArg (fun s => (⟨s, _⟩ : System)) (if_pos (Ne.symm hkept))
          · obtain ⟨rfl, -⟩ := Option.ite_none_right_eq_some.mp hcb
            exact congrArg (fun s => (⟨s, _⟩ : System)) (if_pos (Ne.symm hkept))
          · contradiction

/-- Batches that differ in the order of a seat's motion only. -/
theorem runSystem_congr {cbs' : List Callback} (hagree : Operation sys.bridge) (hsid : sid ≠ 0)
    (h : .managerManageStart ∉ cbs) (h' : .managerManageStart ∉ cbs')
    (hothers : othersThan sid cbs = othersThan sid cbs')
    (hmotion : motionOf sid cbs = motionOf sid cbs') : runSystem cbs sys = runSystem cbs' sys := by
  by_cases hseat : sys.bridge.pointerSeat = sid
  · have hid : sid ≠ 0 ∧ sid ≤ sys.bridge.nextId := ⟨hsid, hseat ▸ hagree.seat_le⟩
    rw [runSystem_batch h hseat hid, runSystem_batch h' hseat hid, hothers, hmotion]
  · rw [runSystem_ignored h hseat, runSystem_ignored h' hseat, hothers]

end Batch

end XmonadWayland.Bridge
