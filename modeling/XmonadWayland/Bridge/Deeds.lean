import XmonadWayland.Bridge.Wire
import XmonadWayland.Bridge.Sync

/-!
# XmonadWayland.Bridge.Deeds

What the bridge does in a transaction, said once.  A transaction is made of deeds: it changes
records where no object begins or ends, it makes a request that the records allow, it asks for
the nodes of new windows, it drops the records that were withdrawn.  What every deed keeps,
every transaction keeps (`Deeds.keeps`).
-/

namespace XmonadWayland.Bridge

/-- Windows have their node once they are configured. -/
def Suited (s : State) : Prop := ∀ w ∈ s.windows, w.node = w.configured

/-- The run ends with a failure, or because the manager finished. -/
def Vital (s : State) : Prop := s.running = true ∨ s.failed = true ∨ s.finished = true

/-- No object begins or ends and nothing is asked for. -/
structure Silent (s s' : State) : Prop where
  roll : ∀ kind, roll s' kind = roll s kind
  suited : Suited s → Suited s'
  requests : s'.requests = s.requests
  nextId : s'.nextId = s.nextId
  issued : s'.issued = s.issued
  phase : s'.phase = s.phase
  stopSent : s'.stopSent = s.stopSent
  vital : Vital s → Vital s'

namespace Silent

variable {s s' : State}

theorem fields (hw : s'.windows = s.windows) (ho : s'.outputs = s.outputs)
    (hx : s'.seats = s.seats) (hr : s'.requests = s.requests) (hn : s'.nextId = s.nextId)
    (hi : s'.issued = s.issued) (hphase : s'.phase = s.phase)
    (hstop : s'.stopSent = s.stopSent) (hvital : Vital s → Vital s' := by exact fun h => h) :
    Silent s s' :=
  ⟨fun kind => by cases kind <;> simp only [Bridge.roll, hw, ho, hx],
    fun h => by rwa [Suited, hw], hr, hn, hi, hphase, hstop, hvital⟩

theorem trans {s'' : State} (h : Silent s s') (h' : Silent s' s'') : Silent s s'' :=
  ⟨fun kind => (h'.roll kind).trans (h.roll kind), fun hs => h'.suited (h.suited hs),
    h'.requests.trans h.requests, h'.nextId.trans h.nextId, h'.issued.trans h.issued,
    h'.phase.trans h.phase, h'.stopSent.trans h.stopSent, fun hs => h'.vital (h.vital hs)⟩

theorem fail (message : String) (s : State) : Silent s (fail message s) :=
  fields rfl rfl rfl rfl rfl rfl rfl rfl fun _ => Or.inr (Or.inl rfl)

theorem mapWindows {f : Window → Window} (hf : ∀ w, (f w).id = w.id
    ∧ (f w).existence = w.existence ∧ (f w).configured = w.configured) (s : State) :
    Silent s { s with windows := s.windows.map f } := by
  refine ⟨fun kind => ?_, fun h => ?_, rfl, rfl, rfl, rfl, rfl, fun h => h⟩
  · cases kind with
    | window =>
        simp only [Bridge.roll, List.map_map]
        refine List.map_congr_left fun w _ => ?_
        rw [Function.comp_apply, (hf w).1, (hf w).2.1]
    | output => rfl
    | seat => rfl
  · refine List.forall_mem_map.mpr fun w hw => ?_
    have hnode : (f w).node = w.node := congrArg Existence.part (hf w).2.1
    rw [hnode, (hf w).2.2]
    exact h w hw

theorem modifyWindow (id : Nat) {f : Window → Window} (hf : ∀ w, (f w).id = w.id
    ∧ (f w).existence = w.existence ∧ (f w).configured = w.configured) (s : State) :
    Silent s (modifyWindow id f s) := by
  refine mapWindows (f := fun w => if w.id = id then f w else w) (fun w => ?_) s
  split
  · exact hf w
  · exact ⟨rfl, rfl, rfl⟩

theorem modifySeat (id : Nat) {f : Seat → Seat}
    (hf : ∀ x, (f x).id = x.id ∧ (f x).existence = x.existence) (s : State) :
    Silent s (modifySeat id f s) := by
  refine ⟨fun kind => ?_, fun h => h, rfl, rfl, rfl, rfl, rfl, fun h => h⟩
  cases kind with
  | seat =>
      simp only [Bridge.roll, Bridge.modifySeat, List.map_map]
      refine List.map_congr_left fun x _ => ?_
      rw [Function.comp_apply]
      split
      · rw [(hf x).1, (hf x).2]
      · rfl
  | window => rfl
  | output => rfl

end Silent

/-- Ask for the nodes of the new windows and configure them. -/
def configured (s : State) : State :=
  send (s.windows.flatMap Window.configureRequests)
    { s with windows := s.windows.map fun w =>
        { w with node := w.node || !w.configured, configured := true, announced := true } }

/-- The destruction of an object. -/
def Kind.destroys : Kind → Nat → Request
  | .window, id => .destroyWindow id
  | .output, id => .destroyOutput id
  | .seat, id => .destroySeat id

/-- The records of a kind that were withdrawn are dropped, and destroyed. -/
structure Drops (kind : Kind) (s s' : State) : Prop where
  roll : roll s' kind = (roll s kind).filter fun entry => !entry.2.withdrawn
  others : ∀ other, other ≠ kind → Bridge.roll s' other = Bridge.roll s other
  suited : Suited s → Suited s'
  requests : s'.requests = s.requests
    ++ ((Bridge.roll s kind).filter fun entry => entry.2.withdrawn).map fun entry =>
      kind.destroys entry.1
  nextId : s'.nextId = s.nextId
  issued : s'.issued = s.issued
  phase : s'.phase = s.phase
  stopSent : s'.stopSent = s.stopSent
  vital : Vital s → Vital s'

/-- The requests that may be made in a phase. -/
def scopes : Phase → Scope → Prop
  | .idle, scope => scope = .anytime
  | .manage, scope => scope = .management ∨ scope = .rendering ∨ scope = .anytime
  | .render, scope => scope = .rendering

inductive Deed (phase : Phase) (s : State) : State → Prop
  | silent (s' : State) : Silent s s' → Deed phase s s'
  | ask (r : Request) : r.allowed s → scopes phase r.scope → Deed phase s (send [r] s)
  | configure : phase = .manage → (∀ w ∈ s.windows, w.closed = false) →
      Deed phase s (configured s)
  | drop (kind : Kind) (s' : State) : phase = .manage → Drops kind s s' → Deed phase s s'

/-- One deed after another. -/
abbrev Deeds (phase : Phase) : State → State → Prop := Relation.ReflTransGen (Deed phase)

namespace Deeds

variable {phase : Phase} {s s' : State}

/-- What every deed keeps. -/
theorem keeps {P : State → Prop} (hdeed : ∀ {s s'}, Deed phase s s' → P s → P s')
    (h : Deeds phase s s') (hs : P s) : P s' := by
  induction h with
  | refl => exact hs
  | tail _ hlast ih => exact hdeed hlast ih

/-- A silent change is made of deeds. -/
theorem silent (h : Silent s s') : Deeds phase s s' := .single (.silent s' h)

/-- Several requests; asking changes no record. -/
theorem asks {requests : List Request} (h : ∀ r ∈ requests, r.allowed s ∧ scopes phase r.scope) :
    Deeds phase s (send requests s) := by
  induction requests generalizing s with
  | nil =>
      have hnone : send [] s = s := by simp [send]
      rw [hnone]
  | cons r requests ih =>
      obtain ⟨⟨hr, hscope⟩, hrest⟩ := List.forall_mem_cons.mp h
      have hnext : Deeds phase (send [r] s) (send requests (send [r] s)) :=
        ih fun r' hr' => hrest r' hr'
      have hsplit : send (r :: requests) s = send requests (send [r] s) := by simp [send]
      rw [hsplit]
      exact .head (.ask r hr hscope) hnext

theorem foldl {α : Type} {f : State → α → State} (hf : ∀ s x, Deeds phase s (f s x))
    (xs : List α) (s : State) : Deeds phase s (xs.foldl f s) :=
  List.foldlRecOn (motive := fun t => Deeds phase s t) xs f .refl fun t ht x _ => ht.trans (hf t x)

end Deeds

/-! ## Requests of objects that are there -/

/-- The object is there and is not withdrawn. -/
def Present (kind : Kind) (i : Nat) (s : State) : Prop :=
  ∃ v, (i, v) ∈ roll s kind ∧ v.withdrawn = false

/-- So is the part it is given. -/
def Furnished (kind : Kind) (i : Nat) (s : State) : Prop :=
  ∃ v, (i, v) ∈ roll s kind ∧ v.part = true ∧ v.withdrawn = false

section Present

variable {s s' : State} {id : Nat} {r : Request}

theorem Present.congr {kind : Kind} (h : Present kind id s) (hroll : roll s' kind = roll s kind) :
    Present kind id s' := by
  obtain ⟨v, hv, hlive⟩ := h
  exact ⟨v, hroll ▸ hv, hlive⟩

theorem Request.allowed.congr (h : r.allowed s) (hroll : ∀ kind, roll s' kind = roll s kind) :
    r.allowed s' := by
  intro kind i
  rw [hroll kind]
  exact h kind i

/-- A recorded window that is not closed is present. -/
theorem present_window {w : Window} (hw : w ∈ s.windows) (hopen : w.closed = false) :
    Present .window w.id s := ⟨_, List.mem_map_of_mem hw, hopen⟩

/-- A recorded output that is not removed is present. -/
theorem present_output {o : Output} (ho : o ∈ s.outputs) (hlive : o.removed = false) :
    Present .output o.id s := ⟨_, List.mem_map_of_mem ho, hlive⟩

/-- A recorded seat that is not removed is present. -/
theorem present_seat {x : Seat} (hx : x ∈ s.seats) (hlive : x.removed = false) :
    Present .seat x.id s := ⟨_, List.mem_map_of_mem hx, hlive⟩

/-- A window that is found is present. -/
theorem present_findWindow {w : Window} (h : findWindow id s = some w) :
    Present .window w.id s := by
  obtain ⟨hmem, -, hopen⟩ := findWindow_some h
  exact present_window hmem hopen

/-- A seat that is found is present. -/
theorem present_findSeat {x : Seat} (h : findSeat id s = some x) : Present .seat x.id s := by
  obtain ⟨hmem, -, hlive⟩ := findSeat_some h
  exact present_seat hmem hlive

/-- An object that allows what is done with it. -/
theorem handled {kind : Kind} {handling : Handling}
    (h : ∃ v, (id, v) ∈ roll s kind ∧ handling.keeps v = true) (i : Nat) :
    (if id = i then handling else .other) = .other
      ∨ ∃ v, (i, v) ∈ roll s kind ∧ (if id = i then handling else .other).keeps v = true := by
  by_cases hid : id = i
  · subst hid
    rw [if_pos rfl]
    exact Or.inr h
  · exact Or.inl (if_neg hid)

/-- A present object may be used. -/
theorem Present.keeps {kind : Kind} (h : Present kind id s) :
    ∃ v, (id, v) ∈ roll s kind ∧ Handling.use.keeps v = true := by
  obtain ⟨v, hv, hlive⟩ := h
  exact ⟨v, hv, by simp [Handling.keeps, hlive]⟩

/-- So may the part it was given. -/
theorem Furnished.keeps {kind : Kind} (h : Furnished kind id s) :
    ∃ v, (id, v) ∈ roll s kind ∧ Handling.usePart.keeps v = true := by
  obtain ⟨v, hv, hpart, hlive⟩ := h
  exact ⟨v, hv, by simp [Handling.keeps, hpart, hlive]⟩

/-- A use of a window and of nothing else. -/
theorem allowed_window (h : Present .window id s)
    (hw : ∀ i, r.windowHandling i = if id = i then .use else .other)
    (ho : ∀ i, r.outputHandling i = .other) (hx : ∀ i, r.seatHandling i = .other) :
    r.allowed s
  | .window, i => by rw [Request.handling, hw i]; exact handled h.keeps i
  | .output, i => Or.inl (ho i)
  | .seat, i => Or.inl (hx i)

/-- A use of a window's node. -/
theorem allowed_node (h : Furnished .window id s)
    (hw : ∀ i, r.windowHandling i = if id = i then .usePart else .other)
    (ho : ∀ i, r.outputHandling i = .other) (hx : ∀ i, r.seatHandling i = .other) :
    r.allowed s
  | .window, i => by rw [Request.handling, hw i]; exact handled h.keeps i
  | .output, i => Or.inl (ho i)
  | .seat, i => Or.inl (hx i)

/-- A use of a seat and of nothing else. -/
theorem allowed_seat (h : Present .seat id s)
    (hx : ∀ i, r.seatHandling i = if id = i then .use else .other)
    (hw : ∀ i, r.windowHandling i = .other) (ho : ∀ i, r.outputHandling i = .other) :
    r.allowed s
  | .window, i => Or.inl (hw i)
  | .output, i => Or.inl (ho i)
  | .seat, i => by rw [Request.handling, hx i]; exact handled h.keeps i

/-- Fullscreen may be asked for a present window on a present output. -/
theorem allowed_fullscreen {output : Nat} (h : Present .window id s)
    (ho : Present .output output s) : (Request.fullscreen id output).allowed s
  | .window, i => handled h.keeps i
  | .output, i => handled ho.keeps i
  | .seat, _ => Or.inl rfl

/-- A present seat may be asked to focus a present window. -/
theorem allowed_focusWindow {seat : Nat} (h : Present .window id s) (hx : Present .seat seat s) :
    (Request.focusWindow seat id).allowed s
  | .window, i => handled h.keeps i
  | .output, _ => Or.inl rfl
  | .seat, i => handled hx.keeps i

/-- An output with a layer-shell object may be made the default. -/
theorem allowed_setDefault (h : Furnished .output id s) : (Request.setDefault id).allowed s
  | .window, _ => Or.inl rfl
  | .output, i => handled h.keeps i
  | .seat, _ => Or.inl rfl

end Present

/-- Records change, then requests are made. -/
theorem Deeds.tell {phase : Phase} {s s' : State} (hs : Silent s s') {requests : List Request}
    (h : ∀ r ∈ requests, r.allowed s ∧ scopes phase r.scope) : Deeds phase s (send requests s') :=
  (Deeds.silent hs).trans (Deeds.asks fun r hr => ⟨(h r hr).1.congr hs.roll, (h r hr).2⟩)

/-! ## The functions Haskell calls -/

section Calls

variable {s : State}

/-- What runs only in a manage phase does the deeds of its body. -/
theorem deeds_requireManage {phase : Phase} {f : State → State} (hf : ∀ t, Deeds phase t (f t))
    (s : State) : Deeds phase s (requireManage f s) := by
  unfold requireManage
  split
  · exact .refl
  · split
    · exact .silent (.fail _ s)
    · exact hf s

/-- Placing a window does deeds of the manage phase. -/
theorem deeds_xwSetWindow (id : Nat) (visible : Bool) (x y width height : Int) (focused : Bool)
    (s : State) : Deeds .manage s (xwSetWindow id visible x y width height focused s) := by
  refine deeds_requireManage (fun t => ?_) s
  split
  · exact .refl
  · next w hw =>
    obtain ⟨hmem, hid, hopen⟩ := findWindow_some hw
    have hpresent : Present .window id t := hid ▸ present_findWindow hw
    refine Deeds.tell (Silent.modifyWindow _ (fun w => ?_) t) fun r hr => ?_
    · unfold Window.restored
      split <;> exact ⟨rfl, rfl, rfl⟩
    · rcases List.mem_append.mp hr with hr | hr <;> split at hr
      · rw [List.mem_singleton.mp hr]
        exact ⟨allowed_window hpresent (fun _ => rfl) (fun _ => rfl) fun _ => rfl, Or.inl rfl⟩
      · contradiction
      · next hrestores =>
        rw [List.mem_singleton.mp hr]
        simp only [Window.restores, Window.placed, Bool.and_eq_true] at hrestores
        have hnode : Furnished .window id t :=
          hid ▸ ⟨w.existence, List.mem_map_of_mem hmem, hrestores.2, hopen⟩
        exact ⟨allowed_node hnode (fun _ => rfl) (fun _ => rfl) fun _ => rfl, Or.inr (Or.inl rfl)⟩
      · contradiction

/-- Choosing the default output does deeds of the manage phase. -/
theorem deeds_xwSetOutput (id : Nat) (s : State) : Deeds .manage s (xwSetOutput id s) := by
  refine deeds_requireManage (fun t => ?_) s
  have hpicker : Silent t { t with pickerOutputId := id } :=
    .fields rfl rfl rfl rfl rfl rfl rfl rfl
  simp only
  split
  · next hany =>
    obtain ⟨o, ho, hcond⟩ := List.any_eq_true.mp hany
    simp only [Bool.and_eq_true, Bool.not_eq_true', decide_eq_true_eq] at hcond
    obtain ⟨⟨rfl, hlayer⟩, hlive⟩ := hcond
    refine Deeds.tell hpicker fun r hr => ?_
    rw [List.mem_singleton.mp hr]
    exact ⟨allowed_setDefault ⟨_, List.mem_map_of_mem ho, hlayer, hlive⟩, Or.inl rfl⟩
  · exact .silent hpicker

/-- Applying fullscreen to a present window does deeds of the manage phase. -/
theorem deeds_applyFullscreen {w : Window} (hw : Present .window w.id s) (outputId : Nat)
    (fullscreen : Bool) : Deeds .manage s (applyFullscreen w outputId fullscreen s) := by
  have huse : ∀ r : Request, (∀ i, r.windowHandling i = if w.id = i then .use else .other) →
      (∀ i, r.outputHandling i = .other) → (∀ i, r.seatHandling i = .other) → r.allowed s :=
    fun r => allowed_window hw
  unfold applyFullscreen
  simp only
  split
  · split
    · refine Deeds.tell (Silent.modifyWindow _ ?_ s) fun r hr => ?_
      · exact fun _ => ⟨rfl, rfl, rfl⟩
      simp only [List.mem_cons, List.not_mem_nil, or_false] at hr
      rcases hr with rfl | rfl
      · exact ⟨huse _ (fun _ => rfl) (fun _ => rfl) fun _ => rfl, Or.inl rfl⟩
      · exact ⟨huse _ (fun _ => rfl) (fun _ => rfl) fun _ => rfl, Or.inl rfl⟩
    · exact .refl
  · next hcond =>
    split
    · have hlive : Present .output outputId s := by
        simp only [Bool.or_eq_true, Bool.not_eq_true', not_or, Bool.not_eq_false] at hcond
        obtain ⟨o, ho, hcond⟩ := List.any_eq_true.mp hcond.2
        simp only [Bool.and_eq_true, Bool.not_eq_true', decide_eq_true_eq] at hcond
        exact hcond.1 ▸ present_output ho hcond.2
      refine Deeds.tell (Silent.modifyWindow _ ?_ s) fun r hr => ?_
      · exact fun _ => ⟨rfl, rfl, rfl⟩
      simp only [List.mem_cons, List.not_mem_nil, or_false] at hr
      rcases hr with rfl | rfl
      · exact ⟨allowed_fullscreen hw hlive, Or.inl rfl⟩
      · exact ⟨huse _ (fun _ => rfl) (fun _ => rfl) fun _ => rfl, Or.inl rfl⟩
    · exact .refl

/-- Setting a window's mode does deeds of the manage phase. -/
theorem deeds_xwSetMode (id outputId : Nat) (floating fullscreen : Bool) (s : State) :
    Deeds .manage s (xwSetMode id outputId floating fullscreen s) := by
  refine deeds_requireManage (fun t => ?_) s
  split
  · exact .refl
  · next w hw =>
    have hsilent : Silent t (modifyWindow w.id (fun w => { w with floating := floating }) t) :=
      .modifyWindow _ (f := fun w => { w with floating := floating }) (fun _ => ⟨rfl, rfl, rfl⟩) t
    have htiled : Deeds .manage t (send [.setTiled w.id (if floating then 0 else 15)]
        (modifyWindow w.id (fun w => { w with floating := floating }) t)) := by
      refine Deeds.tell hsilent fun r hr => ?_
      rw [List.mem_singleton.mp hr]
      exact ⟨allowed_window (present_findWindow hw) (fun _ => rfl) (fun _ => rfl) fun _ => rfl,
        Or.inl rfl⟩
    refine Relation.ReflTransGen.trans htiled (deeds_applyFullscreen ?_ outputId fullscreen)
    exact (present_findWindow hw).congr (hsilent.roll .window)

/-- Pushing one placement does deeds of the manage phase. -/
theorem deeds_placementRequests (placement : Placement) (s : State) :
    Deeds .manage s (placementRequests placement s) :=
  (deeds_xwSetMode _ _ _ _ s).trans (deeds_xwSetWindow _ _ _ _ _ _ _ _)

/-- Focusing does deeds of the manage phase. -/
theorem deeds_xwFocus (id : Nat) (s : State) : Deeds .manage s (xwFocus id s) := by
  refine deeds_requireManage (fun t => ?_) s
  split
  · exact .refl
  · next seat hseat =>
    split
    · exact .refl
    · next hcond =>
      simp only [not_or, Bool.not_eq_true] at hcond
      have hpresent : Present .seat seat.id t := present_seat (primarySeat_some hseat).2 hcond.1
      have hclear : Deeds .manage t (send [.clearFocus seat.id] t) := .asks fun r hr => by
        rw [List.mem_singleton.mp hr]
        exact ⟨allowed_seat hpresent (fun _ => rfl) (fun _ => rfl) fun _ => rfl, Or.inl rfl⟩
      split
      · next w hw =>
        split
        · refine .asks fun r hr => ?_
          rw [List.mem_singleton.mp hr]
          exact ⟨allowed_focusWindow (present_findWindow hw) hpresent, Or.inl rfl⟩
        · exact hclear
      · exact hclear

/-- Closing a window does deeds of the manage phase. -/
theorem deeds_xwClose (id : Nat) (s : State) : Deeds .manage s (xwClose id s) := by
  refine deeds_requireManage (fun t => ?_) s
  split
  · exact .refl
  · split
    · next w hw =>
      refine .asks fun r hr => ?_
      rw [List.mem_singleton.mp hr]
      exact ⟨allowed_window (present_findWindow hw) (fun _ => rfl) (fun _ => rfl) fun _ => rfl,
        Or.inl rfl⟩
    · exact .refl

/-- Settling a seat is silent. -/
theorem silent_settle (id : Nat) (s : State) : Silent s (modifySeat id Seat.settle s) :=
  .modifySeat id (f := Seat.settle) (fun _ => ⟨rfl, rfl⟩) s

/-- Ending an operation does deeds of the manage phase. -/
theorem deeds_endOperation (s : State) : Deeds .manage s (endOperation s) := by
  have hended : ∀ seat, findSeat s.pointerSeat s = some seat →
      Deeds .manage s (send [.opEnd seat.id] (modifySeat seat.id Seat.settle s)) := by
    intro seat hseat
    refine Deeds.tell (silent_settle _ s) fun r hr => ?_
    rw [List.mem_singleton.mp hr]
    exact ⟨allowed_seat (present_findSeat hseat) (fun _ => rfl) (fun _ => rfl) fun _ => rfl,
      Or.inl rfl⟩
  have hinformed : ∀ w t, findWindow s.pointerWindow s = some w → Deeds .manage s t →
      roll t .window = roll s .window →
      Deeds .manage s (if s.pointerEdges ≠ 0 then send [.informResizeEnd w.id] t else t) := by
    intro w t hw ht hroll
    split
    · refine ht.trans (Deeds.asks fun r hr => ?_)
      rw [List.mem_singleton.mp hr]
      exact ⟨allowed_window ((present_findWindow hw).congr hroll) (fun _ => rfl) (fun _ => rfl)
        fun _ => rfl, Or.inl rfl⟩
    · exact ht
  have hforget : ∀ t, Silent t { t with pointerSeat := 0, pointerWindow := 0, pointerEdges := 0 } :=
    fun t => .fields rfl rfl rfl rfl rfl rfl rfl rfl
  unfold endOperation
  refine Relation.ReflTransGen.trans ?_ (Deeds.silent (hforget _))
  cases hseat : findSeat s.pointerSeat s with
  | none =>
      cases hw : findWindow s.pointerWindow s with
      | none => exact .refl
      | some w => exact hinformed w s hw .refl rfl
  | some seat =>
      cases hw : findWindow s.pointerWindow s with
      | none => exact hended seat hseat
      | some w => exact hinformed w _ hw (hended seat hseat) rfl

/-- Starting one for a present seat and window does deeds of the manage phase. -/
theorem deeds_startOperation {seat : Seat} {w : Window} (hseat : Present .seat seat.id s)
    (hw : Present .window w.id s) (edges : Nat) :
    Deeds .manage s (startOperation seat w edges s) := by
  have hrecord : Silent s (modifySeat seat.id Seat.settle
      { s with pointerSeat := seat.id, pointerWindow := w.id, pointerEdges := edges }) := by
    have hgrab : Silent s { s with
        pointerSeat := seat.id, pointerWindow := w.id, pointerEdges := edges } :=
      .fields rfl rfl rfl rfl rfl rfl rfl rfl
    have hsettle := silent_settle seat.id
      { s with pointerSeat := seat.id, pointerWindow := w.id, pointerEdges := edges }
    exact ⟨fun kind => (hsettle.roll kind).trans (hgrab.roll kind), hsettle.suited, rfl, rfl, rfl,
        rfl, rfl, fun h => h⟩
  have hstarted : Deeds .manage s (send [.opStartPointer seat.id] (modifySeat seat.id Seat.settle
      { s with pointerSeat := seat.id, pointerWindow := w.id, pointerEdges := edges })) := by
    refine Deeds.tell hrecord fun r hr => ?_
    rw [List.mem_singleton.mp hr]
    exact ⟨allowed_seat hseat (fun _ => rfl) (fun _ => rfl) fun _ => rfl, Or.inl rfl⟩
  unfold startOperation
  simp only
  split
  · refine hstarted.trans (Deeds.asks fun r hr => ?_)
    rw [List.mem_singleton.mp hr]
    have hpresent := hw.congr (hrecord.roll .window)
    exact ⟨allowed_window hpresent (fun _ => rfl) (fun _ => rfl) fun _ => rfl, Or.inl rfl⟩
  · exact hstarted

/-- Setting the operation does deeds of the manage phase. -/
theorem deeds_xwSetPointerOperation (seatId windowId edges : Nat) (s : State) :
    Deeds .manage s (xwSetPointerOperation seatId windowId edges s) := by
  unfold xwSetPointerOperation
  split
  · exact .silent (.fail _ s)
  · split
    · exact .refl
    · split
      · split
        · exact (deeds_endOperation s).trans (Deeds.silent (.fail _ _))
        · exact deeds_endOperation s
      · split
        · exact .refl
        · split
          · next seat w hseat hw =>
            split
            · exact .refl
            · exact deeds_startOperation (present_findSeat hseat) (present_findWindow hw) edges
          · exact .refl

/-! ### Bindings -/

/-- No record of the kind is of a withdrawn object. -/
def Cleared (kind : Kind) (s : State) : Prop := ∀ entry ∈ roll s kind, entry.2.withdrawn = false

/-- Once seats are cleared, every recorded seat is present. -/
theorem Cleared.seat (h : Cleared .seat s) {seat : Seat} (hseat : seat ∈ s.seats) :
    Present .seat seat.id s :=
  ⟨_, List.mem_map_of_mem hseat, h _ (List.mem_map_of_mem hseat)⟩

theorem Cleared.congr {kind : Kind} {s' : State} (h : Cleared kind s)
    (hroll : roll s' kind = roll s kind) : Cleared kind s' := by
  rwa [Cleared, hroll]

/-- A request for a binding of a seat that is there. -/
theorem allowed_binding (h : Cleared .seat s) {seat : Seat} (hseat : primarySeat s = some seat)
    {r : Request}
    (hx : ∀ i, r.seatHandling i = if seat.id = i then .use else .other)
    (hw : ∀ i, r.windowHandling i = .other) (ho : ∀ i, r.outputHandling i = .other) : r.allowed s :=
  allowed_seat (h.seat (primarySeat_some hseat).2) hx hw ho

/-- Configuring windows keeps the roll's ids and withdrawals. -/
theorem roll_configured (s : State) (kind : Kind) : ∀ entry ∈ roll (configured s) kind,
    ∃ entry' ∈ roll s kind, entry'.1 = entry.1 ∧ entry'.2.withdrawn = entry.2.withdrawn := by
  intro entry hentry
  cases kind with
  | window =>
      obtain ⟨w', hw', rfl⟩ := List.mem_map.mp hentry
      obtain ⟨w, hw, rfl⟩ := List.mem_map.mp hw'
      exact ⟨(w.id, w.existence), List.mem_map_of_mem hw, rfl, rfl⟩
  | output => exact ⟨entry, hentry, rfl, rfl⟩
  | seat => exact ⟨entry, hentry, rfl, rfl⟩

/-- Deeds bring no withdrawn record back. -/
theorem cleared_deed {phase : Phase} {kind : Kind} {s s' : State} (h : Deed phase s s')
    (hc : Cleared kind s) : Cleared kind s' := by
  cases h with
  | silent s' h => exact hc.congr (h.roll kind)
  | ask r _ _ => exact hc
  | configure _ _ =>
      intro entry hentry
      obtain ⟨entry', hentry', -, heq⟩ := roll_configured s kind entry hentry
      exact heq ▸ hc entry' hentry'
  | drop dropped s' _ h =>
      intro entry hentry
      by_cases hkind : kind = dropped
      · subst hkind
        rw [h.roll] at hentry
        exact hc entry (List.mem_of_mem_filter hentry)
      · rw [h.others kind hkind] at hentry
        exact hc entry hentry

/-- A deed leaves the phase as it is. -/
theorem phase_deed {phase : Phase} {s s' : State} (h : Deed phase s s') : s'.phase = s.phase := by
  cases h with
  | silent s' h => exact h.phase
  | ask r _ _ => rfl
  | configure _ _ => rfl
  | drop kind s' _ h => exact h.phase

/-- A manage sequence that has dropped what was withdrawn. -/
structure Managing (s : State) : Prop where
  phase : s.phase = .manage
  seats : Cleared .seat s

/-- A deed of the manage phase keeps managing. -/
theorem managing_deed {s s' : State} (h : Deed .manage s s') (hm : Managing s) : Managing s' :=
  ⟨(phase_deed h).trans hm.phase, cleared_deed h hm.seats⟩

/-- Deeds of such a sequence. -/
def Manages (s s' : State) : Prop := Managing s → Deeds .manage s s'

namespace Manages

variable {s s' s'' : State}

/-- Deeds of the manage phase are managed. -/
theorem of_deeds (h : Deeds .manage s s') : Manages s s' := fun _ => h

theorem trans (h : Manages s s') (h' : Manages s' s'') : Manages s s'' := fun hm =>
  (h hm).trans (h' ((h hm).keeps managing_deed hm))

theorem foldl {α : Type} {f : State → α → State} (hf : ∀ s x, Manages s (f s x)) (xs : List α)
    (s : State) : Manages s (xs.foldl f s) :=
  List.foldlRecOn (motive := fun t => Manages s t) xs f (fun _ => .refl)
    fun t ht x _ => ht.trans (hf t x)

end Manages

/-- Adding a binding is managed. -/
theorem deeds_xwAddBinding (keysym modifiers index mode : Nat) (s : State) :
    Manages s (xwAddBinding keysym modifiers index mode s) := by
  intro hm
  unfold xwAddBinding
  split
  · next seat hseat =>
    split
    · exact .silent (.fail _ s)
    · refine Deeds.tell (Silent.modifySeat _ ?_ s) fun r hr => ?_
      · exact fun _ => ⟨rfl, rfl⟩
      rw [List.mem_singleton.mp hr]
      exact ⟨allowed_binding hm.seats hseat (fun _ => rfl) (fun _ => rfl) fun _ => rfl,
        Or.inr (Or.inr rfl)⟩
  · exact .silent (.fail _ s)

/-- Configuring a present seat is managed. -/
theorem deeds_configureSeat (cfg : Config) {seat : Seat} {s : State}
    (hseat : Present .seat seat.id s) : Manages s (configureSeat cfg seat s) := by
  unfold configureSeat
  simp only
  refine Manages.trans (Manages.trans (fun _ => Deeds.tell (Silent.modifySeat _ ?_ s)
    fun r hr => ?_) (.foldl (fun t _ => deeds_xwAddBinding _ _ _ _ t) _ _))
    (.of_deeds (.silent (Silent.modifySeat _ ?_ _)))
  · exact fun _ => ⟨rfl, rfl⟩
  · obtain ⟨button, -, rfl⟩ := List.mem_map.mp hr
    exact ⟨allowed_seat hseat (fun _ => rfl) (fun _ => rfl) fun _ => rfl, Or.inr (Or.inr rfl)⟩
  · exact fun _ => ⟨rfl, rfl⟩

/-- Switching the binding mode is managed. -/
theorem deeds_xwSetBindingMode (mode : Nat) (s : State) :
    Manages s (xwSetBindingMode mode s) := by
  intro hm
  unfold xwSetBindingMode
  split
  · exact .silent (.fail _ s)
  · have hmode : Silent s { s with bindingMode := mode } := .fields rfl rfl rfl rfl rfl rfl rfl rfl
    simp only
    split
    · exact .silent hmode
    · next seat hseat =>
      refine (Deeds.silent hmode).trans (Deeds.tell (Silent.modifySeat _ ?_ _) fun r hr => ?_)
      · exact fun _ => ⟨rfl, rfl⟩
      have hallowed : ∀ r : Request,
          (∀ i, r.seatHandling i = if seat.id = i then .use else .other) →
          (∀ i, r.windowHandling i = .other) → (∀ i, r.outputHandling i = .other) →
          r.allowed { s with bindingMode := mode } := fun r =>
        allowed_binding (hm.seats.congr (hmode.roll .seat)) hseat
      rcases List.mem_append.mp hr with hr | hr
      · obtain ⟨b, -, rfl⟩ := List.mem_map.mp hr
        split <;> exact ⟨hallowed _ (fun _ => rfl) (fun _ => rfl) fun _ => rfl, Or.inl rfl⟩
      · obtain ⟨b, -, rfl⟩ := List.mem_map.mp hr
        split <;> exact ⟨hallowed _ (fun _ => rfl) (fun _ => rfl) fun _ => rfl, Or.inl rfl⟩

/-- Resetting the bindings is managed. -/
theorem deeds_xwResetBindings (cfg : Config) (s : State) :
    Manages s (xwResetBindings cfg s) := by
  intro hm
  unfold xwResetBindings
  split
  · exact .silent (.fail _ s)
  · split
    · exact .refl
    · next seat hseat =>
      have hsilent : Silent s (modifySeat seat.id (fun seat => { seat with bindings := [] }) s) :=
        .modifySeat _ (f := fun seat => { seat with bindings := [] }) (fun _ => ⟨rfl, rfl⟩) s
      have hpresent : Present .seat seat.id s := hm.seats.seat (primarySeat_some hseat).2
      have hdestroyed : Deeds .manage s (send (seat.bindings.map fun binding =>
          .destroyBinding seat.id binding.index)
            (modifySeat seat.id (fun seat => { seat with bindings := [] }) s)) := by
        refine Deeds.tell hsilent fun r hr => ?_
        obtain ⟨b, -, rfl⟩ := List.mem_map.mp hr
        exact ⟨allowed_seat hpresent (fun _ => rfl) (fun _ => rfl) fun _ => rfl,
          Or.inr (Or.inr rfl)⟩
      have hconfigured : ∀ t : List Request, Manages
          (send t (modifySeat seat.id (fun seat => { seat with bindings := [] }) s))
          (configureSeat cfg { seat with bindings := [] }
            (send t (modifySeat seat.id (fun seat => { seat with bindings := [] }) s))) :=
        fun t => deeds_configureSeat cfg (hpresent.congr (hsilent.roll .seat))
      exact ((Manages.of_deeds hdestroyed).trans
        (hconfigured _)).trans (deeds_xwSetBindingMode _ _) hm

end Calls

/-! ## The transactions -/

section Transactions

/-- Dropping the withdrawn objects of a list of records. -/
theorem drops_filter {α : Type} (kind : Kind) (key : α → Nat) (existence : α → Existence)
    (records : List α) {s s' : State}
    (hold : roll s kind = records.map fun a => (key a, existence a))
    (hnew : roll s' kind = (records.filter fun a => !(existence a).withdrawn).map
      fun a => (key a, existence a))
    (hothers : ∀ other, other ≠ kind → roll s' other = roll s other)
    (hsuited : Suited s → Suited s')
    (hsent : s'.requests = s.requests ++ (records.filter fun a => (existence a).withdrawn).map
      fun a => kind.destroys (key a))
    (hn : s'.nextId = s.nextId) (hi : s'.issued = s.issued) (hphase : s'.phase = s.phase)
    (hstop : s'.stopSent = s.stopSent) (hvital : Vital s → Vital s') : Drops kind s s' := by
  refine ⟨?_, hothers, hsuited, ?_, hn, hi, hphase, hstop, hvital⟩
  · rw [hnew, hold, List.filter_map]
    rfl
  · rw [hsent, hold, List.filter_map, List.map_map]
    rfl

/-- Dropping outputs destroys only removed ones. -/
theorem drops_dropOutputs (sys : System) : Drops .output sys.bridge (dropOutputs sys).bridge := by
  refine drops_filter .output Output.id Output.existence sys.bridge.outputs rfl rfl ?_ (fun h => h)
    ?_ rfl rfl rfl rfl fun h => h
  · intro other hother
    cases other with
    | output => contradiction
    | window => rfl
    | seat => rfl
  · rfl

/-- Dropping windows destroys only closed ones. -/
theorem drops_dropWindows (sys : System) : Drops .window sys.bridge (dropWindows sys).bridge := by
  refine drops_filter .window Window.id Window.existence sys.bridge.windows rfl rfl ?_ (fun h => ?_)
    ?_ rfl rfl rfl rfl fun h => h
  · intro other hother
    cases other with
    | window => contradiction
    | output => rfl
    | seat => rfl
  · exact fun w hw => h w (List.mem_of_mem_filter hw)
  · rfl

/-- Dropping seats destroys only removed ones. -/
theorem drops_dropSeats (sys : System) : Drops .seat sys.bridge (dropSeats sys).bridge := by
  refine drops_filter .seat Seat.id Seat.existence sys.bridge.seats rfl rfl ?_ (fun h => h)
    ?_ rfl rfl rfl rfl fun h => h
  · intro other hother
    cases other with
    | seat => contradiction
    | window => rfl
    | output => rfl
  · rfl

/-- Publishing outputs creates and destroys nothing. -/
theorem silent_publishOutputs (sys : System) :
    Silent sys.bridge (publishOutputs sys).bridge := by
  have hmarked : Silent sys.bridge { sys.bridge with
      outputs := (sys.bridge.outputs.takeWhile Output.complete).map Output.published
        ++ sys.bridge.outputs.dropWhile Output.complete } := by
    refine ⟨fun kind => ?_, fun h => h, rfl, rfl, rfl, rfl, rfl, fun h => h⟩
    cases kind with
    | output =>
        simp only [roll, List.map_append, List.map_map]
        conv_rhs => rw [← List.takeWhile_append_dropWhile (p := Output.complete)
          (l := sys.bridge.outputs), List.map_append]
        rfl
    | window => rfl
    | seat => rfl
  unfold publishOutputs
  simp only
  split
  · exact hmarked
  · exact hmarked.trans (.fail _ _)

/-- Publishing metadata creates and destroys nothing. -/
theorem silent_publishMetadata (sys : System) :
    Silent sys.bridge (publishMetadata sys).bridge :=
  .mapWindows (f := Window.published) (fun _ => ⟨rfl, rfl, rfl⟩) sys.bridge

/-- Publishing the lock creates and destroys nothing. -/
theorem silent_publishLock (sys : System) : Silent sys.bridge (publishLock sys).bridge := by
  unfold publishLock
  split
  · exact .fields rfl rfl rfl rfl rfl rfl rfl rfl
  · exact .fields rfl rfl rfl rfl rfl rfl rfl rfl

/-- Configuring the primary seat is managed. -/
theorem manages_configurePrimary (cfg : Config) (s : State) :
    Manages s (configurePrimary cfg s) := by
  intro hm
  unfold configurePrimary
  split
  · next seat hseat =>
    split
    · exact .refl
    · exact deeds_configureSeat cfg (hm.seats.seat (primarySeat_some hseat).2) hm
  · exact .refl

/-- The lifecycle up to the seats. -/
theorem deeds_announced (sys : System) : Deeds .manage sys.bridge
    (dropSeats (publishMetadata (announceWindows (publishOutputs (dropWindows
      (dropOutputs sys)))))).bridge := by
  have hwindows : ∀ w ∈ (publishOutputs (dropWindows (dropOutputs sys))).bridge.windows,
      w.closed = false := by
    have hkept : Cleared .window (publishOutputs (dropWindows (dropOutputs sys))).bridge := by
      refine Cleared.congr (s := (dropWindows (dropOutputs sys)).bridge) (fun entry hentry => ?_)
        ((silent_publishOutputs _).roll .window)
      rw [(drops_dropWindows _).roll] at hentry
      simpa using (List.mem_filter.mp hentry).2
    exact fun w hw => hkept _ (List.mem_map_of_mem hw)
  exact ((((Relation.ReflTransGen.single (.drop .output _ rfl (drops_dropOutputs sys))).tail
    (.drop .window _ rfl (drops_dropWindows _))).tail (.silent _ (silent_publishOutputs _))).tail
    (.configure rfl hwindows)).trans ((Deeds.silent (silent_publishMetadata _)).tail
      (.drop .seat _ rfl (drops_dropSeats _)))

/-- The lifecycle update does deeds of the manage phase. -/
theorem deeds_updateLifecycle (sys : System) (hphase : sys.bridge.phase = .manage) :
    Deeds .manage sys.bridge (updateLifecycle sys).bridge := by
  have hearly : Deeds .manage sys.bridge (publishOutputs (dropWindows (dropOutputs sys))).bridge :=
    ((Relation.ReflTransGen.single (.drop .output _ rfl (drops_dropOutputs sys))).tail
      (.drop .window _ rfl (drops_dropWindows _))).tail (.silent _ (silent_publishOutputs _))
  unfold updateLifecycle
  simp only
  split
  · exact hearly
  · have hannounced := deeds_announced sys
    refine hannounced.trans (((manages_configurePrimary _ _).trans (deeds_xwSetBindingMode _ _)) ?_)
    refine ⟨hannounced.keeps (fun hd h => (phase_deed hd).trans h) hphase, fun entry hentry => ?_⟩
    rw [(drops_dropSeats _).roll] at hentry
    simpa using (List.mem_filter.mp hentry).2

/-- Rewriting the primary seat is silent while its id and existence stay. -/
theorem silent_modifyPrimary {f : Seat → Seat}
    (hf : ∀ x, (f x).id = x.id ∧ (f x).existence = x.existence) (s : State) :
    Silent s (modifyPrimary f s) := by
  unfold modifyPrimary
  split
  · exact .modifySeat _ hf s
  · exact .fields rfl rfl rfl rfl rfl rfl rfl rfl

/-- What precedes the queue does deeds of the manage phase. -/
theorem deeds_beforeQueue (sys : System) :
    Deeds .manage { sys.bridge with phase := .manage } (beforeQueue sys).bridge := by
  have hlock := silent_publishLock (sys.onBridge fun s => { s with phase := .manage })
  have hlifecycle := (Deeds.silent hlock).trans (deeds_updateLifecycle _ hlock.phase)
  refine hlifecycle.tail (.silent _ ?_)
  unfold beforeQueue
  simp only [System.onBridge, bridge_cancelOperation]
  refine silent_modifyPrimary (f := fun seat => { seat with layerFocusOverride := false }) ?_ _
  exact fun _ => ⟨rfl, rfl⟩

/-- Draining the queue is silent. -/
theorem silent_drained (sys : System) : Silent sys.bridge (drainInput sys).bridge := by
  have hdrained : Silent sys.bridge (sys.bridge.input.foldl drainEvent sys).bridge := by
    refine drainEvents_induction (P := fun s => Silent sys.bridge s) _
      (.fields rfl rfl rfl rfl rfl rfl rfl rfl) fun id s hs => ?_
    have hfocus :
      Silent s (modifySeat id (fun seat => { seat with layerFocusOverride := true }) s) :=
      .modifySeat id (f := fun seat => { seat with layerFocusOverride := true })
        (fun _ => ⟨rfl, rfl⟩) s
    exact hs.trans hfocus
  exact { hdrained with }

/-- Publishing the drag is silent. -/
theorem silent_publishDrag (sys : System) : Silent sys.bridge (publishDrag sys).bridge := by
  rcases publishDrag_cases sys with heq | ⟨id, events, -, heq⟩ <;> rw [heq]
  · exact .fields rfl rfl rfl rfl rfl rfl rfl rfl
  · exact silent_settle id sys.bridge

/-- The stages before Haskell takes over. -/
theorem deeds_handedOver (sys : System) :
    Deeds .manage { sys.bridge with phase := .manage } (handedOver sys).bridge :=
  ((deeds_beforeQueue sys).tail (.silent _ (silent_drained _))).tail
    (.silent _ (silent_publishDrag _))

/-- Unless the lifecycle failed, what was withdrawn is gone when Haskell takes over. -/
theorem managing_handedOver {sys : System} (hf : (handedOver sys).bridge.failed = false) :
    Managing (handedOver sys).bridge := by
  have hbefore : (beforeQueue sys).bridge.failed = false := by
    rw [Bool.eq_false_iff] at hf ⊢
    exact fun h => hf (failed_publishDrag (failed_drainInput h))
  have hkept := (silent_drained (beforeQueue sys)).trans (silent_publishDrag _)
  have hlive : Cleared .seat (beforeQueue sys).bridge :=
    List.forall_mem_map.mpr fun seat hseat => live_beforeQueue hbefore seat hseat
  exact ⟨(deeds_handedOver sys).keeps (fun hd h => (phase_deed hd).trans h) rfl,
    hlive.congr (hkept.roll .seat)⟩

/-- Pushing the policy is managed. -/
theorem manages_applyPolicy (p : Policy) (s : State) : Manages s (applyPolicy p s) := by
  rw [applyPolicy_eq]
  exact ((deeds_xwSetBindingMode _ s).trans (.of_deeds (deeds_xwSetPointerOperation _ _ _ _))).trans
    (.of_deeds (((deeds_xwSetOutput _ _).trans
      (Deeds.foldl (fun t placement => deeds_placementRequests placement t) _ _)).trans
        (deeds_xwFocus _ _)))

/-- Executing an effect is managed. -/
theorem manages_execute (sys : System) (effect : Effect) :
    Manages sys.bridge (execute sys effect).bridge := by
  cases effect with
  | closeWindow wid => exact .of_deeds (deeds_xwClose wid sys.bridge)
  | stopRuntime =>
      intro hm
      have hstop :
          (execute sys .stopRuntime).bridge = { sys.bridge with stopRequested := true } := by
        simp [execute, System.onBridge, xwStop, hm.phase]
      rw [hstop]
      exact .silent (.fields rfl rfl rfl rfl rfl rfl rfl rfl)
  | reloadConfig =>
      simp only [execute, reload]
      split
      · exact fun _ => .refl
      · exact (deeds_xwResetBindings _ _).trans (deeds_xwSetBindingMode _ _)
  | _ => exact fun _ => .refl

/-- The manage callback is managed. -/
theorem manages_manage (sys : System) : Manages sys.bridge (manage sys).bridge :=
  manage_induction (P := fun t => Manages sys.bridge t.bridge) (manages_applyPolicy _ _)
    fun t effect ht => ht.trans (manages_execute t effect)

/-- What the end of a transaction sends: nothing if it failed, else the answer and a stop that
is due. -/
inductive Ending (finish : Request) (failed stopSent : Bool) : List Request → Bool → Prop
  | failure : failed = true → Ending finish failed stopSent [] stopSent
  | answer : failed = false → Ending finish failed stopSent [finish] stopSent
  | stop : failed = false → stopSent = false → Ending finish failed stopSent [finish, .stop] true

/-- The end of a transaction. -/
structure Ends (finish : Request) (s s' : State) : Prop where
  roll : ∀ kind, roll s' kind = roll s kind
  suited : Suited s → Suited s'
  nextId : s'.nextId = s.nextId
  issued : s'.issued = s.issued
  failed : s'.failed = s.failed
  phase : s'.phase = .idle
  vital : Vital s → Vital s'
  sent : ∃ sent, s'.requests = s.requests ++ sent
    ∧ Ending finish s.failed s.stopSent sent s'.stopSent

/-- A failed transaction ends without its answer. -/
theorem ends_failed (finish : Request) {s : State} (hf : s.failed = true) :
    Ends finish s (sendStop { s with phase := .idle }) := by
  have hquiet : sendStop { s with phase := .idle } = { s with phase := .idle } := by
    simp [sendStop, hf]
  rw [hquiet]
  exact ⟨fun _ => rfl, fun h => h, rfl, rfl, rfl, rfl, fun h => h, [], (List.append_nil _).symm,
    .failure hf⟩

/-- A transaction that did not fail ends with its answer. -/
theorem ends_answered {finish : Request} {s t : State} (hf : s.failed = false)
    (ht : Silent (send [finish] s) t) (hfailed : t.failed = s.failed) :
    Ends finish s (sendStop { t with phase := .idle }) := by
  unfold sendStop
  split
  · next hstop =>
    refine ⟨ht.roll, ht.suited, ht.nextId, ht.issued, hfailed, rfl, ht.vital, [finish, .stop], ?_,
      .stop hf ?_⟩
    · change t.requests ++ [.stop] = _
      rw [ht.requests]
      simp [send]
    · have hunsent : t.stopSent = false := by simpa using hstop.2.1
      exact ht.stopSent ▸ hunsent
  · refine ⟨ht.roll, ht.suited, ht.nextId, ht.issued, hfailed, rfl, ht.vital, [finish],
      ht.requests, ?_⟩
    change Ending finish s.failed s.stopSent [finish] t.stopSent
    rw [ht.stopSent]
    exact .answer hf

/-- The last lines of a manage transaction end it. -/
theorem ends_manageFinish (s : State) : Ends .manageFinish s (sendStop { (if s.failed then s
    else { send [.manageFinish] s with managed := true, awaitingRender := true }) with
      phase := .idle }) := by
  split
  · next hf => exact ends_failed _ hf
  · next hf =>
    exact ends_answered (Bool.eq_false_iff.mpr hf) (.fields rfl rfl rfl rfl rfl rfl rfl rfl) rfl

/-- The end of a manage transaction does its deeds and then answers. -/
theorem deeds_finishManage {sys : System} (h : sys.bridge.failed = false → Managing sys.bridge) :
    ∃ t, Deeds .manage sys.bridge t ∧ Ends .manageFinish t (finishManage sys).bridge := by
  have hcancel : Silent sys.bridge { sys.bridge with pointerCancelBatch := false } :=
    .fields rfl rfl rfl rfl rfl rfl rfl rfl
  unfold finishManage
  simp only
  split
  · exact ⟨_, .silent hcancel, ends_manageFinish _⟩
  · next hok =>
    have hmanaging := h (Bool.eq_false_iff.mpr hok)
    have hmanaged := manages_manage (sys.onBridge fun s => { s with pointerCancelBatch := false })
      ⟨hmanaging.phase, hmanaging.seats⟩
    exact ⟨_, (Deeds.silent hcancel).trans hmanaged, ends_manageFinish _⟩

/-- A manage sequence: deeds, then the answer. -/
theorem deeds_runManage (sys : System) : ∃ t, Deeds .manage { sys.bridge with phase := .manage } t
    ∧ Ends .manageFinish t (runManage sys).bridge := by
  have hmanaging : (handedOver sys).bridge.failed = false → Managing (handedOver sys).bridge :=
    managing_handedOver
  obtain ⟨t, ht, hends⟩ := deeds_finishManage hmanaging
  exact ⟨t, (deeds_handedOver sys).trans ht, hends⟩

/-! ### Render sequences -/

/-- Setting a render position is silent. -/
theorem silent_xwSetRenderPosition (id : Nat) (x y : Int) (s : State) :
    Silent s (xwSetRenderPosition id x y s) := by
  unfold xwSetRenderPosition
  split
  · exact .fail _ s
  · split
    · exact .fields rfl rfl rfl rfl rfl rfl rfl rfl
    · split
      · exact .fields rfl rfl rfl rfl rfl rfl rfl rfl
      · refine .modifyWindow _ ?_ s
        exact fun _ => ⟨rfl, rfl, rfl⟩

/-- A renderable window is present and has its node. -/
theorem furnished_renderable {s : State} {w : Window} (h : w ∈ renderable s) :
    Present .window w.id s ∧ Furnished .window w.id s := by
  obtain ⟨hmem, hcond⟩ := List.mem_filter.mp h
  simp only [Bool.and_eq_true, Bool.not_eq_true'] at hcond
  exact ⟨present_window hmem hcond.1, w.existence, List.mem_map_of_mem hmem, hcond.2, hcond.1⟩

/-- The focused record is renderable. -/
theorem mem_focusedRecord {s : State} {w : Window} (h : focusedRecord s = some w) :
    w ∈ renderable s := List.mem_of_mem_filter (List.mem_of_getLast? h)

/-- Stacking is asked of windows with a node. -/
theorem allowed_placeTop {s : State} {w : Window} (h : w ∈ renderable s) :
    (Request.placeTop w.id).allowed s ∧ scopes .render (Request.placeTop w.id).scope :=
  ⟨allowed_node (furnished_renderable h).2 (fun _ => rfl) (fun _ => rfl) fun _ => rfl, rfl⟩

/-- Showing a renderable window is allowed in the render phase. -/
theorem allowed_showRequests {s : State} {w : Window} (h : w ∈ renderable s) :
    ∀ r ∈ showRequests s w, r.allowed s ∧ scopes .render r.scope := by
  obtain ⟨hpresent, hnode⟩ := furnished_renderable h
  have huse : ∀ r : Request, (∀ i, r.windowHandling i = if w.id = i then .use else .other) →
      (∀ i, r.outputHandling i = .other) → (∀ i, r.seatHandling i = .other) → r.allowed s :=
    fun r => allowed_window hpresent
  intro r hr
  unfold showRequests at hr
  split at hr
  · rw [List.mem_singleton.mp hr]
    exact ⟨huse _ (fun _ => rfl) (fun _ => rfl) fun _ => rfl, rfl⟩
  · rcases List.mem_append.mp hr with hr | hr
    · simp only [List.mem_cons, List.not_mem_nil, or_false] at hr
      rcases hr with rfl | rfl | rfl
      · exact ⟨huse _ (fun _ => rfl) (fun _ => rfl) fun _ => rfl, rfl⟩
      · exact ⟨allowed_node hnode (fun _ => rfl) (fun _ => rfl) fun _ => rfl, rfl⟩
      · exact ⟨huse _ (fun _ => rfl) (fun _ => rfl) fun _ => rfl, rfl⟩
    · split at hr
      · rw [List.mem_singleton.mp hr]
        exact allowed_placeTop h
      · contradiction

/-- Stacking the renderable windows is allowed in the render phase. -/
theorem allowed_stackRequests {s : State} :
    ∀ r ∈ stackRequests s, r.allowed s ∧ scopes .render r.scope := by
  intro r hr
  simp only [stackRequests, List.mem_append, List.mem_flatMap, Option.mem_toList,
    Option.map_eq_some_iff, List.mem_map, Option.filter_eq_some_iff] at hr
  rcases hr with ⟨w, ⟨hw, -⟩, rfl⟩ | ⟨i, -, ⟨w, hw, rfl⟩ | ⟨w, ⟨hw, -⟩, rfl⟩⟩
  · exact allowed_placeTop (mem_focusedRecord hw)
  · exact allowed_placeTop (List.mem_of_mem_filter hw)
  · exact allowed_placeTop (mem_focusedRecord hw)

/-- Showing and stacking, then the answer. -/
theorem deeds_drawn (s : State) : ∃ t, Deeds .render s t ∧ Ends .renderFinish t (sendStop {
    (if s.failed then s else { send ((renderable s).flatMap (showRequests s) ++ stackRequests s
      ++ [.renderFinish]) s with awaitingRender := false }) with phase := .idle }) := by
  split
  · next hf => exact ⟨s, .refl, ends_failed _ hf⟩
  · next hf =>
    have hdrawn : Deeds .render s
        (send ((renderable s).flatMap (showRequests s) ++ stackRequests s) s) := by
      refine .asks fun r hr => ?_
      rcases List.mem_append.mp hr with hr | hr
      · obtain ⟨w, hw, hr⟩ := List.mem_flatMap.mp hr
        exact allowed_showRequests hw r hr
      · exact allowed_stackRequests r hr
    refine ⟨_, hdrawn, ends_answered (Bool.eq_false_iff.mpr hf) ?_ rfl⟩
    exact .fields rfl rfl rfl (by simp [send]) rfl rfl rfl rfl

/-- A render sequence: deeds, then the answer. -/
theorem deeds_runRender (sys : System) : ∃ t, Deeds .render { sys.bridge with phase := .render } t
    ∧ Ends .renderFinish t (runRender sys).bridge := by
  have hrendered : Deeds .render { sys.bridge with phase := .render }
      (render ((sys.onBridge fun s => { s with phase := .render }).deliverAll
        (sizeEvents sys.bridge.windows))).bridge :=
    .foldl (fun s q => .silent (silent_xwSetRenderPosition _ _ _ s)) _ _
  obtain ⟨t, ht, hends⟩ := deeds_drawn (render ((sys.onBridge fun s =>
    { s with phase := .render }).deliverAll (sizeEvents sys.bridge.windows))).bridge
  exact ⟨t, hrendered.trans ht, hends⟩

/-- A transaction is refused, which leaves a failure behind, or it runs and is answered. -/
inductive Transacts (phase : Phase) (finish : Request) (s s' : State) : Prop
  | refused : s'.failed = true → Silent s s' → Transacts phase finish s s'
  | ran (t : State) : s.failed = false → Deeds phase { s with phase := phase } t →
      Ends finish t s' → Transacts phase finish s s'

/-- A manage callback is one manage transaction. -/
theorem transacts_managerManageStart (sys : System) :
    Transacts .manage .manageFinish sys.bridge (managerManageStart sys).bridge := by
  rcases managerManageStart_cases sys with ⟨hf, heq⟩ | ⟨message, -, heq⟩ | ⟨hok, heq⟩ <;> rw [heq]
  · exact .refused hf (.fields rfl rfl rfl rfl rfl rfl rfl rfl)
  · exact .refused rfl (.fail message sys.bridge)
  · obtain ⟨t, hdeeds, hends⟩ := deeds_runManage sys
    exact .ran t hok hdeeds hends

/-- A render callback is one render transaction. -/
theorem transacts_managerRenderStart (sys : System) :
    Transacts .render .renderFinish sys.bridge (managerRenderStart sys).bridge := by
  rcases managerRenderStart_cases sys with ⟨hf, heq⟩ | ⟨message, -, heq⟩ | ⟨hok, heq⟩ <;> rw [heq]
  · exact .refused hf (.fields rfl rfl rfl rfl rfl rfl rfl rfl)
  · exact .refused rfl (.fail message sys.bridge)
  · obtain ⟨t, hdeeds, hends⟩ := deeds_runRender sys
    exact .ran t hok hdeeds hends

end Transactions

end XmonadWayland.Bridge
