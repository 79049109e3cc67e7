import XmonadWayland.Bridge.Ledger
import XmonadWayland.Base.Monitor
import XmonadWayland.Policy.Grab

/-!
# XmonadWayland.Bridge.Grab

The pointer operation on both sides of the ABI.  The bridge starts and ends operations
in one function only; everything else is tame, it leaves the triple of the operation
and its requests alone.  A start is queued while there is no operation, and a manage
sequence empties the queue before it hands over, so a policy that has an operation of
its own at that point had none before, and its seat and window are still those the
queue let through.
-/

namespace XmonadWayland.Bridge

/-! ## Tame functions -/

/-- The id has been given to a seat that is removed. -/
def SeatGone (id : Nat) (s : State) : Prop :=
  1 ≤ id ∧ id ≤ s.nextId ∧ ∀ seat ∈ s.seats, seat.id = id → seat.removed = true

/-- The id has been given to a window that is closed. -/
def WindowGone (id : Nat) (s : State) : Prop :=
  1 ≤ id ∧ id ≤ s.nextId ∧ ∀ w ∈ s.windows, w.id = id → w.closed = true

/-- Records may come and go, but the operation and its requests stay. -/
structure Tame (s s' : State) : Prop where
  requests : ∃ extra : List Request, (∀ r ∈ extra, r.isGrab = false)
    ∧ s'.requests = s.requests ++ extra
  nextId : s.nextId ≤ s'.nextId
  pointerSeat : s'.pointerSeat = s.pointerSeat
  pointerWindow : s'.pointerWindow = s.pointerWindow
  pointerEdges : s'.pointerEdges = s.pointerEdges
  seats : ∀ id, SeatGone id s → SeatGone id s'
  windows : ∀ id, WindowGone id s → WindowGone id s'
  input : ∀ e ∈ s'.input, e.kind = .pointer →
    e ∈ s.input ∨ s.pointerSeat = 0 ∧ e.argument = int32 e.seatId
  failures : cannotReplace ∈ s'.failures → cannotReplace ∈ s.failures

namespace Tame

variable {s s' s'' : State}

theorem refl (s : State) : Tame s s :=
  ⟨⟨[], nofun, (List.append_nil _).symm⟩, le_refl _, rfl, rfl, rfl, fun _ h => h, fun _ h => h,
    fun _ he _ => Or.inl he, fun h => h⟩

theorem trans (h : Tame s s') (h' : Tame s' s'') : Tame s s'' where
  requests := by
    obtain ⟨l, hl, heq⟩ := h.requests
    obtain ⟨l', hl', heq'⟩ := h'.requests
    exact ⟨l ++ l', fun r hr => (List.mem_append.mp hr).elim (hl r) (hl' r),
      by rw [heq', heq, List.append_assoc]⟩
  nextId := h.nextId.trans h'.nextId
  pointerSeat := h'.pointerSeat.trans h.pointerSeat
  pointerWindow := h'.pointerWindow.trans h.pointerWindow
  pointerEdges := h'.pointerEdges.trans h.pointerEdges
  seats id hg := h'.seats id (h.seats id hg)
  windows id hg := h'.windows id (h.windows id hg)
  input e he hk := (h'.input e he hk).elim (fun hm => h.input e hm hk)
    fun hz => Or.inr (h.pointerSeat ▸ hz)
  failures hf := h.failures (h'.failures hf)

/-- A quiet change is tame. -/
theorem of_quiet {still : Prop} (h : Quiet still s s') : Tame s s' where
  requests := h.requests
  nextId := h.nextId.ge
  pointerSeat := h.pointerSeat
  pointerWindow := h.pointerWindow
  pointerEdges := h.pointerEdges
  seats id hg := by
    obtain ⟨f, hf, heq⟩ := h.seats
    refine ⟨hg.1, h.nextId ▸ hg.2.1, fun seat' hmem hid => ?_⟩
    rw [heq] at hmem
    obtain ⟨seat, hseat, rfl⟩ := List.mem_map.mp hmem
    exact (hf seat).removed (hg.2.2 seat hseat ((hf seat).id.symm.trans hid))
  windows id hg := by
    obtain ⟨f, hf, heq⟩ := h.windows
    refine ⟨hg.1, h.nextId ▸ hg.2.1, fun w' hmem hid => ?_⟩
    rw [heq] at hmem
    obtain ⟨w, hw, rfl⟩ := List.mem_map.mp hmem
    exact (hf w).closed (hg.2.2 w hw ((hf w).id.symm.trans hid))
  input e he hk := by
    obtain ⟨extra, hextra, -, heq⟩ := h.input
    rw [heq] at he
    exact (List.mem_append.mp he).imp_right fun hm => hextra e hm hk
  failures := h.failures

/-- Stages that drop or rewrite records without reviving one. -/
theorem of_records (hr : ∃ extra : List Request, (∀ r ∈ extra, r.isGrab = false)
      ∧ s'.requests = s.requests ++ extra)
    (hn : s'.nextId = s.nextId)
    (hpointer : (s'.pointerSeat, s'.pointerWindow, s'.pointerEdges)
      = (s.pointerSeat, s.pointerWindow, s.pointerEdges))
    (hx : ∀ seat' ∈ s'.seats, ∃ seat ∈ s.seats, seat.id = seat'.id
      ∧ (seat.removed = true → seat'.removed = true))
    (hw : ∀ w' ∈ s'.windows, ∃ w ∈ s.windows, w.id = w'.id
      ∧ (w.closed = true → w'.closed = true))
    (hi : ∀ e ∈ s'.input, e ∈ s.input) (hf : s'.failures = s.failures) : Tame s s' where
  requests := hr
  nextId := hn.ge
  pointerSeat := congrArg Prod.fst hpointer
  pointerWindow := congrArg (fun t => t.2.1) hpointer
  pointerEdges := congrArg (fun t => t.2.2) hpointer
  seats id hg := by
    refine ⟨hg.1, hn ▸ hg.2.1, fun seat' hmem hid => ?_⟩
    obtain ⟨seat, hseat, heq, hremoved⟩ := hx seat' hmem
    exact hremoved (hg.2.2 seat hseat (heq.trans hid))
  windows id hg := by
    refine ⟨hg.1, hn ▸ hg.2.1, fun w' hmem hid => ?_⟩
    obtain ⟨w, hw', heq, hclosed⟩ := hw w' hmem
    exact hclosed (hg.2.2 w hw' (heq.trans hid))
  input e he _ := Or.inl (hi e he)
  failures h := hf ▸ h

end Tame

/-! ## Creations are tame -/

/-- Ids are dealt in order until they run out. -/
theorem newId_cases (s : State) :
    newId s = (0, fail "exhausted stable window/output/seat IDs" s) ∨ newId s = (s.nextId + 1,
      { s with nextId := s.nextId + 1, issued := s.issued ++ [s.nextId + 1] }) := by
  unfold newId
  split
  · exact Or.inl rfl
  · exact Or.inr rfl

/-- A failure with another message is tame. -/
theorem tame_fail {message : String} (h : message ≠ cannotReplace) (s : State) :
    Tame s (fail message s) :=
  Tame.of_quiet (quiet_fail h s : Quiet True s (fail message s))

/-- A new record has an id nobody had before. -/
theorem tame_newId (s : State) (s' : State) (id : Nat) (hid : newId s = (id, s')) :
    Tame s s' ∧ ∀ i, 1 ≤ i → i ≤ s.nextId → i ≠ id := by
  rcases newId_cases s with h | h
  · obtain ⟨rfl, rfl⟩ := Prod.mk.inj (h.symm.trans hid)
    exact ⟨tame_fail (by decide) s, fun i h1 _ h0 => by omega⟩
  · obtain ⟨rfl, rfl⟩ := Prod.mk.inj (h.symm.trans hid)
    refine ⟨⟨⟨[], nofun, (List.append_nil _).symm⟩, Nat.le_succ _, rfl, rfl, rfl, ?_, ?_,
      fun _ he _ => Or.inl he, fun h => h⟩, fun i _ hle => by omega⟩
    · exact fun id hg => ⟨hg.1, hg.2.1.trans (Nat.le_succ _), hg.2.2⟩
    · exact fun id hg => ⟨hg.1, hg.2.1.trans (Nat.le_succ _), hg.2.2⟩

/-- Announcing a window is tame. -/
theorem tame_managerWindow (s : State) : Tame s (managerWindow s) := by
  obtain ⟨ht, hnew⟩ := tame_newId s (newId s).2 (newId s).1 rfl
  refine { ht with windows := fun i hg => ?_ }
  obtain ⟨h1, hle, hclosed⟩ := ht.windows i hg
  refine ⟨h1, hle, fun w hw hid => ?_⟩
  rcases List.mem_append.mp hw with hm | hm
  · exact hclosed w hm hid
  · rw [List.mem_singleton.mp hm] at hid
    exact absurd hid.symm (hnew i hg.1 hg.2.1)

/-- Announcing an output is tame. -/
theorem tame_managerOutput (s : State) : Tame s (managerOutput s) := by
  obtain ⟨ht, -⟩ := tame_newId s (newId s).2 (newId s).1 rfl
  have happend : Tame (newId s).2
      { (newId s).2 with outputs := (newId s).2.outputs ++ [{ id := (newId s).1 }] } :=
    ⟨⟨[], nofun, (List.append_nil _).symm⟩, le_refl _, rfl, rfl, rfl, fun _ h => h, fun _ h => h,
      fun _ he _ => Or.inl he, fun h => h⟩
  exact (ht.trans happend).trans (Tame.of_quiet (quiet_attachLayerOutput _ _))

/-- Announcing a seat is tame. -/
theorem tame_managerSeat (s : State) : Tame s (managerSeat s) := by
  obtain ⟨ht, hnew⟩ := tame_newId s (newId s).2 (newId s).1 rfl
  refine Tame.trans ?_ (Tame.of_quiet (quiet_attachLayerSeat _ _))
  refine { ht with seats := fun i hg => ?_ }
  obtain ⟨h1, hle, hremoved⟩ := ht.seats i hg
  refine ⟨h1, hle, fun seat hseat hid => ?_⟩
  rcases List.mem_append.mp hseat with hm | hm
  · exact hremoved seat hm hid
  · rw [List.mem_singleton.mp hm] at hid
    exact absurd hid.symm (hnew i hg.1 hg.2.1)

/-- Callbacks outside the two transactions are tame. -/
theorem tame_listen (cb : Callback) (s : State) : Tame s (listen cb s) :=
  listen_induction (tame_managerWindow s) (tame_managerOutput s) (tame_managerSeat s)
    (fun _ hquiet => Tame.of_quiet hquiet) cb

/-! ## The operation in progress -/

/-- The requests of an object alternate; they are started while the operation holds the
object, and left started only by objects that are gone. -/
structure Holds (requests : List Request) (start finish : Request) (holding gone : Prop) :
    Prop where
  run : ∃ held, runMonitor (toggle start finish) false requests = some held
    ∧ (held = true → holding ∨ gone) ∧ (holding → held = true)

namespace Holds

variable {requests : List Request} {start finish : Request} {holding gone holding' gone' : Prop}

/-- Requests about other objects. -/
theorem skip (h : Holds requests start finish holding gone) {extra : List Request}
    (hextra : ∀ r ∈ extra, r ≠ start ∧ r ≠ finish) (hholding : holding' ↔ holding)
    (hgone : gone → gone') : Holds (requests ++ extra) start finish holding' gone' := by
  obtain ⟨held, hrun, hheld, hback⟩ := h.run
  refine ⟨held, ?_, fun ht => (hheld ht).imp hholding.mpr hgone, fun hh => hback (hholding.mp hh)⟩
  rw [runMonitor_append, hrun, Option.bind_some]
  exact runMonitor_of_ignored fun r hr t => toggle_of_ne (hextra r hr).1 (hextra r hr).2 t

/-- An object that is not held is there to be started. -/
theorem started (h : Holds requests start finish holding gone) (hfree : ¬holding) (hlive : ¬gone)
    (hholding : holding') : Holds (requests ++ [start]) start finish holding' gone' := by
  obtain ⟨held, hrun, hheld, -⟩ := h.run
  obtain rfl : held = false := Bool.eq_false_iff.mpr fun ht => (hheld ht).elim hfree hlive
  refine ⟨true, ?_, fun _ => Or.inl hholding, fun _ => rfl⟩
  rw [runMonitor_concat hrun]
  simp [toggle]

/-- A held object is let go. -/
theorem ended (h : Holds requests start finish holding gone) (hne : finish ≠ start)
    (hheld : holding) (hfree : ¬holding') :
    Holds (requests ++ [finish]) start finish holding' gone' := by
  obtain ⟨held, hrun, -, hback⟩ := h.run
  obtain rfl : held = true := hback hheld
  refine ⟨false, ?_, nofun, fun hh => absurd hh hfree⟩
  rw [runMonitor_concat hrun]
  simp [toggle, hne]

/-- A held object that is gone is forgotten. -/
theorem forgotten (h : Holds requests start finish holding gone) (hgone : holding ∨ gone → gone')
    (hfree : ¬holding') : Holds requests start finish holding' gone' := by
  obtain ⟨held, hrun, hheld, -⟩ := h.run
  exact ⟨held, hrun, fun ht => Or.inr (hgone (hheld ht)), fun hh => absurd hh hfree⟩

end Holds

/-- What the requests so far say about the operation in progress. -/
structure Operation (s : State) : Prop where
  none : s.pointerSeat = 0 → s.pointerWindow = 0 ∧ s.pointerEdges = 0
  seat_le : s.pointerSeat ≤ s.nextId
  window_le : s.pointerWindow ≤ s.nextId
  window : s.pointerSeat ≠ 0 → 1 ≤ s.pointerWindow
  seats : ∀ id, 1 ≤ id →
    Holds s.requests (.opStartPointer id) (.opEnd id) (s.pointerSeat = id) (SeatGone id s)
  windows : ∀ id, 1 ≤ id → Holds s.requests (.informResizeStart id) (.informResizeEnd id)
    (s.pointerWindow = id ∧ s.pointerEdges ≠ 0) (WindowGone id s)
  input : ∀ e ∈ s.input, e.kind = .pointer → s.pointerSeat = 0 ∧ e.argument = int32 e.seatId
  failures : cannotReplace ∉ s.failures

/-- The first state has no operation. -/
theorem operation_initial : Operation {} where
  none _ := ⟨rfl, rfl⟩
  seat_le := le_refl _
  window_le := le_refl _
  window h := absurd rfl h
  seats id hid := ⟨false, rfl, nofun, fun h => by change 0 = id at h; omega⟩
  windows id hid := ⟨false, rfl, nofun, fun h => by have h0 : 0 = id := h.1; omega⟩
  input := nofun
  failures := nofun

/-- A request that is no grab is neither start nor finish. -/
theorem ne_of_not_grab {r request : Request} (h : r.isGrab = false) (hr : request.isGrab = true) :
    r ≠ request := by
  rintro rfl
  exact absurd h (by simp [hr])

/-- Tame functions keep what is known about the operation. -/
theorem Operation.tame {s s' : State} (h : Operation s) (ht : Tame s s') : Operation s' := by
  obtain ⟨extra, hextra, hrequests⟩ := ht.requests
  exact
    { none := fun hz => by
        rw [ht.pointerWindow, ht.pointerEdges]
        exact h.none (ht.pointerSeat ▸ hz)
      seat_le := ht.pointerSeat ▸ h.seat_le.trans ht.nextId
      window_le := ht.pointerWindow ▸ h.window_le.trans ht.nextId
      window := fun hz => by
        rw [ht.pointerWindow]
        exact h.window (ht.pointerSeat ▸ hz)
      seats := fun id hid => by
        rw [hrequests, ht.pointerSeat]
        exact (h.seats id hid).skip (fun r hr =>
          ⟨ne_of_not_grab (hextra r hr) rfl, ne_of_not_grab (hextra r hr) rfl⟩) Iff.rfl (ht.seats id)
      windows := fun id hid => by
        rw [hrequests, ht.pointerWindow, ht.pointerEdges]
        exact (h.windows id hid).skip (fun r hr =>
          ⟨ne_of_not_grab (hextra r hr) rfl, ne_of_not_grab (hextra r hr) rfl⟩) Iff.rfl
          (ht.windows id)
      input := fun e he hk => by
        rw [ht.pointerSeat]
        exact (ht.input e he hk).elim (fun hm => h.input e hm hk) id
      failures := fun hf => h.failures (ht.failures hf) }

/-! ## Ending and starting -/

/-- Only the operation, its requests and the motion of seats differ. -/
structure Regrab (s s' : State) : Prop where
  windows : s'.windows = s.windows
  outputs : s'.outputs = s.outputs
  seats : ∃ f : Seat → Seat, (∀ x, SeatStep True x (f x)) ∧ s'.seats = s.seats.map f
  input : s'.input = s.input
  issued : s'.issued = s.issued
  nextId : s'.nextId = s.nextId
  phase : s'.phase = s.phase
  primary : s'.primary = s.primary
  failures : s'.failures = s.failures
  failed : s'.failed = s.failed

theorem Regrab.refl (s : State) : Regrab s s :=
  ⟨rfl, rfl, ⟨id, fun x => SeatStep.refl x, (List.map_id _).symm⟩, rfl, rfl, rfl, rfl, rfl, rfl, rfl⟩

/-- Removal of seats does not change. -/
theorem Regrab.seatGone {s s' : State} (h : Regrab s s') (id : Nat) :
    SeatGone id s' ↔ SeatGone id s := by
  obtain ⟨f, hf, heq⟩ := h.seats
  simp only [SeatGone, h.nextId, heq, List.mem_map, forall_exists_index, and_imp,
    forall_apply_eq_imp_iff₂, (hf _).id, ((hf _).still trivial).1]

/-- A change of the operation removes no window. -/
theorem Regrab.windowGone {s s' : State} (h : Regrab s s') (id : Nat) :
    WindowGone id s' ↔ WindowGone id s := by
  simp only [WindowGone, h.nextId, h.windows]

/-- Settling is a step of the seat's operation. -/
theorem seatStep_settle (seat : Seat) : SeatStep True seat seat.settle :=
  ⟨rfl, fun h => h, fun _ => ⟨rfl, rfl⟩⟩

/-- Settling the seat and naming another operation is a regrab. -/
theorem regrab_settle (id : Nat) (requests : List Request) (s : State) (seat window edges : Nat) :
    Regrab s { send requests (modifySeat id Seat.settle s) with
      pointerSeat := seat, pointerWindow := window, pointerEdges := edges } := by
  obtain ⟨f, hf, heq⟩ := (quiet_modifySeat id seatStep_settle s).seats
  exact ⟨rfl, rfl, ⟨f, hf, heq⟩, rfl, rfl, rfl, rfl, rfl, rfl, rfl⟩

/-- A seat that is found is recorded, live and of its id. -/
theorem findSeat_some {id : Nat} {s : State} {seat : Seat} (h : findSeat id s = some seat) :
    seat ∈ s.seats ∧ seat.id = id ∧ seat.removed = false := by
  have hp := List.find?_some h
  simp only [Bool.not_eq_true', decide_eq_true_eq] at hp
  exact ⟨List.mem_of_find?_eq_some h, hp⟩

/-- A window that is found is recorded, open and of its id. -/
theorem findWindow_some {id : Nat} {s : State} {w : Window} (h : findWindow id s = some w) :
    w ∈ s.windows ∧ w.id = id ∧ w.closed = false := by
  have hp := List.find?_some h
  simp only [Bool.not_eq_true', decide_eq_true_eq] at hp
  exact ⟨List.mem_of_find?_eq_some h, hp⟩

/-- A given id without a live seat belongs to a removed one. -/
theorem seatGone_of_findSeat {id : Nat} {s : State} (h : findSeat id s = none) (hpos : 1 ≤ id)
    (hle : id ≤ s.nextId) : SeatGone id s := by
  refine ⟨hpos, hle, fun seat hmem hid => ?_⟩
  have hp := List.find?_eq_none.mp h seat hmem
  simpa [hid] using hp

/-- An id that was dealt and is not found is gone. -/
theorem windowGone_of_findWindow {id : Nat} {s : State} (h : findWindow id s = none) (hpos : 1 ≤ id)
    (hle : id ≤ s.nextId) : WindowGone id s := by
  refine ⟨hpos, hle, fun w hmem hid => ?_⟩
  have hp := List.find?_eq_none.mp h w hmem
  simpa [hid] using hp

/-- Ending an operation is a regrab. -/
theorem regrab_endOperation (s : State) : Regrab s (endOperation s) := by
  unfold endOperation
  have hsettled : ∀ seat, Regrab s { send [.opEnd seat] (modifySeat seat Seat.settle s) with
      pointerSeat := 0, pointerWindow := 0, pointerEdges := 0 } :=
    fun seat => regrab_settle _ _ s 0 0 0
  have hleft : Regrab s { s with pointerSeat := 0, pointerWindow := 0, pointerEdges := 0 } :=
    { Regrab.refl s with }
  cases findSeat s.pointerSeat s <;> cases findWindow s.pointerWindow s <;> simp only
  case none.none => exact hleft
  case some.none seat => exact hsettled seat.id
  case none.some window =>
    split
    · exact { hleft with }
    · exact hleft
  case some.some seat window =>
    split
    · exact { hsettled seat.id with }
    · exact hsettled seat.id

/-- What ending the operation in progress requests. -/
theorem requests_endOperation (s : State) :
    ∃ first last, (endOperation s).requests = s.requests ++ first ++ last
      ∧ (first = [.opEnd s.pointerSeat] ∨ first = [] ∧ findSeat s.pointerSeat s = none)
      ∧ (last = [.informResizeEnd s.pointerWindow] ∧ s.pointerEdges ≠ 0
        ∨ last = [] ∧ (s.pointerEdges = 0 ∨ findWindow s.pointerWindow s = none)) := by
  unfold endOperation
  cases hseat : findSeat s.pointerSeat s <;> cases hwindow : findWindow s.pointerWindow s <;> simp only
  case none.none => exact ⟨[], [], by simp, Or.inr ⟨rfl, trivial⟩, Or.inr ⟨rfl, Or.inr trivial⟩⟩
  case some.none seat =>
    refine ⟨[.opEnd s.pointerSeat], [], ?_, Or.inl rfl, Or.inr ⟨rfl, Or.inr trivial⟩⟩
    rw [(findSeat_some hseat).2.1, List.append_nil]
    rfl
  case none.some window =>
    by_cases hedges : s.pointerEdges ≠ 0
    · refine ⟨[], [.informResizeEnd s.pointerWindow], ?_, Or.inr ⟨rfl, trivial⟩, Or.inl ⟨rfl, hedges⟩⟩
      rw [if_pos hedges, (findWindow_some hwindow).2.1, List.append_nil]
      rfl
    · refine ⟨[], [], ?_, Or.inr ⟨rfl, trivial⟩, Or.inr ⟨rfl, Or.inl (not_not.mp hedges)⟩⟩
      rw [if_neg hedges, List.append_nil, List.append_nil]
  case some.some seat window =>
    rw [(findSeat_some hseat).2.1]
    by_cases hedges : s.pointerEdges ≠ 0
    · refine ⟨[.opEnd s.pointerSeat], [.informResizeEnd s.pointerWindow], ?_, Or.inl rfl,
        Or.inl ⟨rfl, hedges⟩⟩
      rw [if_pos hedges, (findWindow_some hwindow).2.1]
      rfl
    · refine ⟨[.opEnd s.pointerSeat], [], ?_, Or.inl rfl, Or.inr ⟨rfl, Or.inl (not_not.mp hedges)⟩⟩
      rw [if_neg hedges, List.append_nil]
      rfl

/-- Ending keeps the requests alternating. -/
theorem operation_endOperation {s : State} (h : Operation s) (hz : s.pointerSeat ≠ 0) :
    Operation (endOperation s) := by
  have hre := regrab_endOperation s
  obtain ⟨first, last, hrequests, hfirst, hlast⟩ := requests_endOperation s
  have hseat : 1 ≤ s.pointerSeat := Nat.one_le_iff_ne_zero.mpr hz
  refine ⟨fun _ => ⟨rfl, rfl⟩, Nat.zero_le _, Nat.zero_le _, fun hne => absurd rfl hne,
    fun id hid => ?_, fun id hid => ?_, fun e he hk => ⟨rfl, ?_⟩, hre.failures ▸ h.failures⟩
  · have hfree : ¬(0 = id) := by omega
    have hends : Holds (s.requests ++ first) (.opStartPointer id) (.opEnd id) (0 = id)
        (SeatGone id (endOperation s)) := by
      rcases hfirst with rfl | ⟨rfl, hnone⟩
      · by_cases heq : s.pointerSeat = id
        · subst heq
          exact (h.seats _ hid).ended (by simp) rfl hfree
        · exact (h.seats id hid).skip (by simp [heq]) (iff_of_false hfree heq)
            (hre.seatGone id).mpr
      · rw [List.append_nil]
        refine (h.seats id hid).forgotten (fun hg => (hre.seatGone id).mpr ?_) hfree
        exact hg.elim (fun heq => heq ▸ seatGone_of_findSeat hnone hseat h.seat_le) fun hg => hg
    rw [hrequests]
    refine hends.skip (fun r hr => ?_) Iff.rfl fun hg => hg
    rcases hlast with ⟨rfl, -⟩ | ⟨rfl, -⟩
    · simp [List.mem_singleton.mp hr]
    · contradiction
  · have hfree : ¬(0 = id ∧ 0 ≠ 0) := fun hg => hg.2 rfl
    have hskip : Holds (s.requests ++ first) (.informResizeStart id) (.informResizeEnd id)
        (s.pointerWindow = id ∧ s.pointerEdges ≠ 0) (WindowGone id (endOperation s)) := by
      refine (h.windows id hid).skip (fun r hr => ?_) Iff.rfl (hre.windowGone id).mpr
      rcases hfirst with rfl | ⟨rfl, -⟩
      · simp [List.mem_singleton.mp hr]
      · contradiction
    rw [hrequests]
    rcases hlast with ⟨rfl, hedges⟩ | ⟨rfl, hnone⟩
    · by_cases heq : s.pointerWindow = id
      · subst heq
        exact hskip.ended (by simp) ⟨rfl, hedges⟩ hfree
      · exact hskip.skip (by simp [heq]) (iff_of_false hfree fun hg => heq hg.1) fun hg => hg
    · rw [List.append_nil]
      refine hskip.forgotten (fun hg => hg.elim (fun hg => ?_) fun hg => hg) hfree
      have hgone := windowGone_of_findWindow (hnone.resolve_left hg.2) (h.window hz) h.window_le
      exact (hre.windowGone id).mpr (hg.1 ▸ hgone)
  · exact (h.input e (hre.input ▸ he) hk).2

/-- Starting one is a regrab. -/
theorem regrab_startOperation (seat : Seat) (window : Window) (edges : Nat) (s : State) :
    Regrab s (startOperation seat window edges s) := by
  have hstarted := regrab_settle seat.id [.opStartPointer seat.id] s seat.id window.id edges
  unfold startOperation
  simp only
  split
  · exact { hstarted with }
  · exact hstarted

/-- The requests that start an operation. -/
theorem requests_startOperation (seat : Seat) (window : Window) (edges : Nat) (s : State) :
    (startOperation seat window edges s).requests = s.requests ++ [.opStartPointer seat.id]
      ++ if edges ≠ 0 then [.informResizeStart window.id] else [] := by
  unfold startOperation
  simp only
  split
  · rfl
  · exact (List.append_nil _).symm

/-- Starting keeps the requests alternating. -/
theorem operation_startOperation {s : State} (h : Operation s) (hz : s.pointerSeat = 0)
    {seat : Seat} (hseat : seat ∈ s.seats) (hlive : seat.removed = false) {window : Window}
    (hwindow : window ∈ s.windows) (hopen : window.closed = false) (hs : 1 ≤ seat.id)
    (hs' : seat.id ≤ s.nextId) (hw : 1 ≤ window.id) (hw' : window.id ≤ s.nextId) (edges : Nat)
    (hqueue : ∀ e ∈ s.input, e.kind ≠ .pointer) :
    Operation (startOperation seat window edges s)
      ∧ ((startOperation seat window edges s).pointerSeat,
        (startOperation seat window edges s).pointerWindow,
        (startOperation seat window edges s).pointerEdges) = (seat.id, window.id, edges) := by
  have hre := regrab_startOperation seat window edges s
  have htriple : (startOperation seat window edges s).pointerSeat = seat.id
      ∧ (startOperation seat window edges s).pointerWindow = window.id
      ∧ (startOperation seat window edges s).pointerEdges = edges := by
    unfold startOperation
    simp only
    split <;> exact ⟨rfl, rfl, rfl⟩
  obtain ⟨htseat, htwindow, htedges⟩ := htriple
  obtain ⟨hw0, he0⟩ := h.none hz
  refine ⟨⟨fun h0 => ?_, ?_, ?_, fun _ => ?_, fun id hid => ?_, fun id hid => ?_,
    fun e he hk => absurd hk (hqueue e (hre.input ▸ he)), hre.failures ▸ h.failures⟩,
    by rw [htseat, htwindow, htedges]⟩
  · omega
  · rw [htseat, hre.nextId]
    exact hs'
  · rw [htwindow, hre.nextId]
    exact hw'
  · rw [htwindow]
    exact hw
  · rw [requests_startOperation, htseat]
    have hstart : Holds (s.requests ++ [.opStartPointer seat.id]) (.opStartPointer id) (.opEnd id)
        (seat.id = id) (SeatGone id (startOperation seat window edges s)) := by
      have hfree : ¬(s.pointerSeat = id) := by omega
      by_cases heq : seat.id = id
      · subst heq
        refine (h.seats _ hid).started hfree (fun hg => ?_) rfl
        rw [hg.2.2 seat hseat rfl] at hlive
        contradiction
      · exact (h.seats id hid).skip (by simp [heq]) (iff_of_false heq hfree) (hre.seatGone id).mpr
    refine hstart.skip (fun r hr => ?_) Iff.rfl fun hg => hg
    split at hr
    · simp [List.mem_singleton.mp hr]
    · contradiction
  · rw [requests_startOperation, htwindow, htedges]
    have hfree : ¬(s.pointerWindow = id ∧ s.pointerEdges ≠ 0) := fun hg => hg.2 he0
    have hskip : Holds (s.requests ++ [.opStartPointer seat.id]) (.informResizeStart id)
        (.informResizeEnd id) (s.pointerWindow = id ∧ s.pointerEdges ≠ 0)
        (WindowGone id (startOperation seat window edges s)) :=
      (h.windows id hid).skip (by simp) Iff.rfl (hre.windowGone id).mpr
    by_cases hedges : edges = 0
    · rw [if_neg (not_not.mpr hedges)]
      exact hskip.skip nofun (iff_of_false (fun hg => hg.2 hedges) hfree) fun hg => hg
    · rw [if_pos hedges]
      by_cases heq : window.id = id
      · subst heq
        refine hskip.started hfree (fun hg => ?_) ⟨rfl, hedges⟩
        rw [((hre.windowGone _).mp hg).2.2 window hwindow rfl] at hopen
        contradiction
      · exact hskip.skip (by simp [heq]) (iff_of_false (fun hg => heq hg.1) hfree) fun hg => hg

/-! ## Agreeing with the policy -/

def State.pointerTriple (s : State) : Nat × Nat × Nat :=
  (s.pointerSeat, s.pointerWindow, s.pointerEdges)

/-- The bridge would let the seat start an operation on the window. -/
structure CanGrab (seatId windowId : Nat) (s : State) : Prop where
  seat : ∃ seat, findSeat seatId s = some seat ∧ seat.layerFocus ≠ .exclusive
  window : ∃ w, findWindow windowId s = some w
  primary : s.primary = some seatId
  unlocked : s.locked = false

/-- The policy has no operation the bridge does not have. -/
def InStep (p : Policy) (s : State) : Prop :=
  ∀ op, p.pointerOperation = some op → s.pointerSeat ≠ 0 ∧ s.pointerTriple = operationTriple p

/-- The policy's operation is the bridge's, or one the bridge would start. -/
def Ready (p : Policy) (s : State) : Prop :=
  ∀ op, p.pointerOperation = some op →
    s.pointerSeat ≠ 0 ∧ s.pointerTriple = operationTriple p
      ∨ s.pointerSeat = 0 ∧ CanGrab op.pointerSeat op.pointerWindow s

section Quiet

variable {s s' : State}

/-- A quiet change keeps a seat findable. -/
theorem Quiet.findSeat (h : Quiet True s s') (id : Nat) {seat : Seat}
    (hfind : findSeat id s = some seat) :
    ∃ seat', Bridge.findSeat id s' = some seat' ∧ seat'.layerFocus = seat.layerFocus := by
  obtain ⟨f, hf, heq⟩ := h.seats
  refine ⟨f seat, ?_, ((hf seat).still trivial).2⟩
  unfold Bridge.findSeat at hfind ⊢
  rw [heq, List.find?_map]
  simp only [Function.comp_def, (hf _).id, ((hf _).still trivial).1]
  rw [hfind, Option.map_some]

/-- A quiet change keeps a window findable. -/
theorem Quiet.findWindow (h : Quiet True s s') (id : Nat) {w : Window}
    (hfind : findWindow id s = some w) : ∃ w', Bridge.findWindow id s' = some w' := by
  obtain ⟨f, hf, heq⟩ := h.windows
  refine ⟨f w, ?_⟩
  unfold Bridge.findWindow at hfind ⊢
  rw [heq, List.find?_map]
  simp only [Function.comp_def, (hf _).id, (hf _).still trivial]
  rw [hfind, Option.map_some]

/-- A quiet change keeps the operation. -/
theorem Quiet.pointerTriple {still : Prop} (h : Quiet still s s') :
    s'.pointerTriple = s.pointerTriple := by
  simp only [State.pointerTriple, h.pointerSeat, h.pointerWindow, h.pointerEdges]

/-- A quiet change keeps what a grab needs. -/
theorem CanGrab.quiet {seatId windowId : Nat} (h : CanGrab seatId windowId s)
    (hq : Quiet True s s') : CanGrab seatId windowId s' := by
  obtain ⟨seat, hseat, hfocus⟩ := h.seat
  obtain ⟨seat', hseat', hfocus'⟩ := hq.findSeat seatId hseat
  obtain ⟨w, hw⟩ := h.window
  exact ⟨⟨seat', hseat', hfocus' ▸ hfocus⟩, hq.findWindow windowId hw, hq.primary.trans h.primary,
    (hq.locked trivial).trans h.unlocked⟩

/-- Sides in step are ready for a push. -/
theorem InStep.ready {p : Policy} (h : InStep p s) : Ready p s := fun op hop => Or.inl (h op hop)

/-- A quiet change keeps them ready. -/
theorem Ready.quiet {p : Policy} (h : Ready p s) (hq : Quiet True s s') : Ready p s' := by
  intro op hop
  rw [hq.pointerSeat, hq.pointerTriple]
  exact (h op hop).imp_right fun hc => ⟨hc.1, hc.2.quiet hq⟩

/-- An operation that was not dropped. -/
theorem kept_operation {p p' : Policy}
    (hp : p'.pointerOperation = p.pointerOperation ∨ p'.pointerOperation = none)
    {op : PointerOperation} (hop : p'.pointerOperation = some op) :
    p.pointerOperation = some op ∧ operationTriple p' = operationTriple p := by
  have hsame : p'.pointerOperation = p.pointerOperation :=
    hp.resolve_right fun hnone => absurd (hop.symm.trans hnone) nofun
  refine ⟨hsame ▸ hop, ?_⟩
  unfold operationTriple
  rw [hsame]

/-- Dropping the operation keeps the policy ready. -/
theorem Ready.drop {p p' : Policy} (h : Ready p s)
    (hp : p'.pointerOperation = p.pointerOperation ∨ p'.pointerOperation = none) : Ready p' s := by
  intro op hop
  obtain ⟨hbefore, ht⟩ := kept_operation hp hop
  rw [ht]
  exact h op hbefore

/-- A policy that only dropped its operation is still in step. -/
theorem InStep.drop {p p' : Policy} (h : InStep p s)
    (hp : p'.pointerOperation = p.pointerOperation ∨ p'.pointerOperation = none) :
    InStep p' s := by
  intro op hop
  obtain ⟨hbefore, ht⟩ := kept_operation hp hop
  rw [ht]
  exact h op hbefore

end Quiet

/-- The seat of a ready operation has an id. -/
theorem Ready.seat_ne {p : Policy} {s : State} (h : Ready p s) (hl : Ledger s)
    {op : PointerOperation} (hop : p.pointerOperation = some op) : op.pointerSeat ≠ 0 := by
  rcases h op hop with ⟨hz, heq⟩ | ⟨-, hcan⟩
  · have ht : operationTriple p = (op.pointerSeat, op.pointerWindow, op.pointerEdges) := by
      rw [operationTriple, hop]
    rw [ht] at heq
    exact fun h0 => hz ((congrArg Prod.fst heq).trans h0)
  · obtain ⟨seat, hseat, -⟩ := hcan.seat
    obtain ⟨hmem, hid, -⟩ := findSeat_some hseat
    have hpos := hl.seats.positive _ (List.mem_map_of_mem (f := Seat.id) hmem)
    exact hid ▸ Nat.one_le_iff_ne_zero.mp hpos

/-- A ready policy hands over an operation the bridge takes. -/
theorem operation_xwSetPointerOperation {p : Policy} {s : State} (h : Operation s) (hl : Ledger s)
    (hphase : s.phase = .manage) (hqueue : ∀ e ∈ s.input, e.kind ≠ .pointer) (hready : Ready p s) :
    ∃ s', xwSetPointerOperation (operationTriple p).1 (operationTriple p).2.1
        (operationTriple p).2.2 s = s'
      ∧ Operation s' ∧ s'.pointerTriple = operationTriple p ∧ Regrab s s' := by
  refine ⟨_, rfl, ?_⟩
  unfold xwSetPointerOperation
  rw [if_neg (not_not.mpr hphase)]
  by_cases hsame : (operationTriple p).1 = s.pointerSeat ∧ (operationTriple p).2.1 = s.pointerWindow
      ∧ (operationTriple p).2.2 = s.pointerEdges
  · rw [if_pos hsame]
    exact ⟨h, Prod.ext hsame.1.symm (Prod.ext hsame.2.1.symm hsame.2.2.symm), Regrab.refl s⟩
  · rw [if_neg hsame]
    cases hop : p.pointerOperation with
    | none =>
        have ht : operationTriple p = (0, 0, 0) := by rw [operationTriple, hop]
        rw [ht] at hsame ⊢
        by_cases hz : s.pointerSeat = 0
        · obtain ⟨hw, he⟩ := h.none hz
          exact absurd ⟨hz.symm, hw.symm, he.symm⟩ hsame
        · rw [if_pos hz, if_neg (not_not.mpr rfl)]
          exact ⟨operation_endOperation h hz, rfl, regrab_endOperation s⟩
    | some op =>
        have ht : operationTriple p = (op.pointerSeat, op.pointerWindow, op.pointerEdges) := by
          rw [operationTriple, hop]
        rcases hready op hop with ⟨-, heq⟩ | ⟨hz, hcan⟩
        · exact absurd ⟨congrArg Prod.fst heq.symm, congrArg (fun t => t.2.1) heq.symm,
            congrArg (fun t => t.2.2) heq.symm⟩ hsame
        · obtain ⟨seat, hseat, hfocus⟩ := hcan.seat
          obtain ⟨w, hw⟩ := hcan.window
          obtain ⟨hmem, hid, hlive⟩ := findSeat_some hseat
          obtain ⟨hwmem, hwid, hopen⟩ := findWindow_some hw
          have hseatmem := List.mem_map_of_mem (f := Seat.id) hmem
          have hwindowmem := List.mem_map_of_mem (f := Window.id) hwmem
          have hno : ¬(s.primary ≠ some seat.id ∨ s.locked = true ∨ seat.layerFocus = .exclusive) := by
            simp [hcan.primary, hid, hcan.unlocked, hfocus]
          rw [ht, if_neg (not_not.mpr hz), if_neg (hready.seat_ne hl hop)]
          simp only [hseat, hw]
          rw [if_neg hno]
          obtain ⟨hstart, htriple⟩ := operation_startOperation h hz hmem hlive hwmem hopen
            (hl.seats.positive _ hseatmem) (hl.seats.bounded _ hseatmem)
            (hl.windows.positive _ hwindowmem) (hl.windows.bounded _ hwindowmem) op.pointerEdges
            hqueue
          refine ⟨hstart, ?_, regrab_startOperation seat w op.pointerEdges s⟩
          rw [State.pointerTriple, htriple, hid, hwid]

end XmonadWayland.Bridge
