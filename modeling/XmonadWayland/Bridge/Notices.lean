import XmonadWayland.Bridge.Deeds

/-!
# XmonadWayland.Bridge.Notices

What the callbacks between two transactions mean to the objects.  Three of them create an
object, three withdraw one, one brings the layer shell, of which every output and seat gets
its part; the others concern no object's life.
-/

namespace XmonadWayland.Bridge

/-- Change what is known of the object `id`. -/
def changeAt (id : Nat) (f : Existence → Existence) (entries : List (Nat × Existence)) :
    List (Nat × Existence) :=
  entries.map fun entry => if entry.1 = id then (entry.1, f entry.2) else entry

/-- The request for the part of an object. -/
def Kind.attaches : Kind → Nat → Request
  | .window, id => .getNode id
  | .output, id => .getLayerOutput id
  | .seat, id => .getLayerSeat id

/-- The object `id` gets its part. -/
structure Attached (kind : Kind) (id : Nat) (s s' : State) : Prop where
  bare : ∃ v, (id, v) ∈ roll s kind ∧ v.part = false ∧ v.withdrawn = false
  roll : roll s' kind = changeAt id (fun v => { v with part := true }) (roll s kind)
  others : ∀ other, other ≠ kind → Bridge.roll s' other = Bridge.roll s other
  suited : Suited s → Suited s'
  requests : s'.requests = s.requests ++ [kind.attaches id]
  nextId : s'.nextId = s.nextId
  issued : s'.issued = s.issued
  failed : s'.failed = s.failed
  stopSent : s'.stopSent = s.stopSent
  vital : Vital s → Vital s'

/-- Nothing, or one part after another. -/
abbrev Attachments : State → State → Prop :=
  Relation.ReflTransGen fun s s' => ∃ kind id, Attached kind id s s'

/-- The compositor withdraws the object `id`. -/
structure Withdrawn (kind : Kind) (id : Nat) (s s' : State) : Prop where
  roll : roll s' kind = changeAt id (fun v => { v with withdrawn := true }) (roll s kind)
  others : ∀ other, other ≠ kind → Bridge.roll s' other = Bridge.roll s other
  suited : Suited s → Suited s'
  requests : s'.requests = s.requests
  nextId : s'.nextId = s.nextId
  issued : s'.issued = s.issued
  stopSent : s'.stopSent = s.stopSent
  vital : Vital s → Vital s'

/-- An object with a new id. -/
structure Created (kind : Kind) (s s' : State) : Prop where
  roll : roll s' kind = roll s kind ++ [((newId s).1, ⟨false, false⟩)]
  others : ∀ other, other ≠ kind → Bridge.roll s' other = Bridge.roll s other
  suited : Suited s → Suited s'
  requests : s'.requests = s.requests
  nextId : s'.nextId = (newId s).2.nextId
  issued : s'.issued = (newId s).2.issued
  failed : s'.failed = (newId s).2.failed
  stopSent : s'.stopSent = s.stopSent
  vital : Vital s → Vital s'

/-! ## Changes of one record -/

section Changes

variable {s : State} {id : Nat} {g : Existence → Existence}

/-- A list of records in which one is changed, by what is known of them. -/
theorem map_changeAt {R : Type} {number : R → Nat} {existence : R → Existence} {f : R → R}
    (hf : ∀ r, number (f r) = number r ∧ existence (f r) = g (existence r)) (l : List R) (id : Nat) :
    (l.map fun r => if number r = id then f r else r).map (fun r => (number r, existence r))
      = changeAt id g (l.map fun r => (number r, existence r)) := by
  simp only [changeAt, List.map_map]
  refine List.map_congr_left fun r _ => ?_
  simp only [Function.comp_apply]
  split
  · rw [(hf r).1, (hf r).2]
  · rfl

theorem roll_modifyWindow {f : Window → Window}
    (hf : ∀ w, (f w).id = w.id ∧ (f w).existence = g w.existence) (s : State) (id : Nat) :
    roll (modifyWindow id f s) .window = changeAt id g (roll s .window) := map_changeAt hf _ id

theorem roll_modifyOutput {f : Output → Output}
    (hf : ∀ o, (f o).id = o.id ∧ (f o).existence = g o.existence) (s : State) (id : Nat) :
    roll (modifyOutput id f s) .output = changeAt id g (roll s .output) := map_changeAt hf _ id

theorem roll_modifySeat {f : Seat → Seat}
    (hf : ∀ x, (f x).id = x.id ∧ (f x).existence = g x.existence) (s : State) (id : Nat) :
    roll (modifySeat id f s) .seat = changeAt id g (roll s .seat) := map_changeAt hf _ id

/-- A record without its part that is still there. -/
theorem exists_bare {R : Type} {number : R → Nat} {existence : R → Existence} {l : List R}
    (h : (l.any fun r => number r = id && !(existence r).part && !(existence r).withdrawn) = true) :
    ∃ v, (id, v) ∈ l.map (fun r => (number r, existence r)) ∧ v.part = false
      ∧ v.withdrawn = false := by
  obtain ⟨r, hr, hbare⟩ := List.any_eq_true.mp h
  simp only [Bool.and_eq_true, Bool.not_eq_true', decide_eq_true_eq] at hbare
  obtain ⟨⟨rfl, hpart⟩, hlive⟩ := hbare
  exact ⟨existence r, List.mem_map_of_mem hr, hpart, hlive⟩

end Changes

/-! ## The layer shell -/

/-- Attaching a layer-shell output only attaches. -/
theorem attachments_attachLayerOutput (id : Nat) (s : State) :
    Attachments s (attachLayerOutput id s) := by
  unfold attachLayerOutput
  split
  · next hcond =>
    refine .single ⟨.output, id, exists_bare hcond.2,
      roll_modifyOutput (f := fun o => { o with layer := true }) (fun _ => ⟨rfl, rfl⟩) s id,
      fun other hother => ?_, fun h => h, rfl, rfl, rfl, rfl, rfl, fun h => h⟩
    cases other with
    | output => contradiction
    | window => rfl
    | seat => rfl
  · exact .refl

/-- Attaching a layer-shell seat only attaches. -/
theorem attachments_attachLayerSeat (id : Nat) (s : State) :
    Attachments s (attachLayerSeat id s) := by
  unfold attachLayerSeat
  split
  · next hcond =>
    refine .single ⟨.seat, id, exists_bare hcond.2,
      roll_modifySeat (f := fun x => { x with layer := true }) (fun _ => ⟨rfl, rfl⟩) s id,
      fun other hother => ?_, fun h => h, rfl, rfl, rfl, rfl, rfl, fun h => h⟩
    cases other with
    | seat => contradiction
    | window => rfl
    | output => rfl
  · exact .refl

/-- Attaching one after the other only attaches. -/
theorem attachments_foldl {f : State → Nat → State} (hf : ∀ s id, Attachments s (f s id))
    (ids : List Nat) (s : State) : Attachments s (ids.foldl f s) :=
  List.foldlRecOn (motive := fun t => Attachments s t) ids f .refl fun t ht id _ =>
    ht.trans (hf t id)

/-! ## Every callback -/

/-- Callbacks that begin or end an object, or give objects their parts. -/
def concernsLives : Callback → Bool
  | .managerWindow => true
  | .managerOutput => true
  | .managerSeat => true
  | .registryLayerShell => true
  | .windowClosed _ => true
  | .outputRemoved _ => true
  | .seatRemoved _ => true
  | _ => false

/-- A callback about no life withdraws nothing. -/
theorem withdraws_of_silent {cb : Callback} (h : concernsLives cb = false) (kind : Kind) (i : Nat) :
    withdraws kind i cb = false := by
  cases cb <;> first | rfl | contradiction

/-- Rewriting an output is silent while its id and existence stay. -/
theorem silent_modifyOutput (id : Nat) {f : Output → Output}
    (hf : ∀ o, (f o).id = o.id ∧ (f o).existence = o.existence) (s : State) :
    Silent s (modifyOutput id f s) := by
  refine ⟨fun kind => ?_, fun h => h, rfl, rfl, rfl, rfl, rfl, fun h => h⟩
  cases kind with
  | output =>
      refine (roll_modifyOutput (g := fun v => v) hf _ _).trans ?_
      simp [changeAt]
  | window => rfl
  | seat => rfl

/-- A flag that ends the run says so. -/
theorem Flagged.vital {s s' : State} (h : Flagged s s') (hs : Vital s) : Vital s' := by
  rcases h.ends with ⟨hrunning, hfinished⟩ | hfinished
  · exact hs.imp hrunning.trans (Or.imp h.failed.trans hfinished.trans)
  · exact Or.inr (Or.inr hfinished)

/-- The callbacks that concern no object's life are made of silent pieces. -/
theorem silent_of_piece {cb : Callback} (h : concernsLives cb = false) {s s' : State}
    (hpiece : Piece cb s s') : Silent s s' := by
  have hparts : attachesParts cb = false := by cases cb <;> first | rfl | contradiction
  cases hpiece with
  | flags _ hf =>
      exact .fields hf.windows hf.outputs hf.seats hf.requests hf.nextId hf.issued hf.phase
        hf.stopSent hf.vital
  | window id f hf =>
      have hopen : ∀ id, cb ≠ .windowClosed id := by rintro id rfl; contradiction
      refine .modifyWindow id (fun w => ⟨(hf w).id, ?_, (hf w).configured⟩) s
      rw [Window.existence, (hf w).node, (hf w).kept hopen]
      rfl
  | output id f hf =>
      have hstays : ∀ id, cb ≠ .outputRemoved id := by rintro id rfl; contradiction
      refine silent_modifyOutput id (fun o => ⟨(hf o).id, ?_⟩) s
      rw [Output.existence, (hf o).layer hparts, (hf o).kept hstays]
      rfl
  | seat id f hf =>
      have hstays : ∀ id, cb ≠ .seatRemoved id := by rintro id rfl; contradiction
      refine .modifySeat id (fun x => ⟨(hf x).id, ?_⟩) s
      rw [Seat.existence, (hf x).layer hparts, (hf x).kept hstays]
      rfl
  | queue => exact .fields rfl rfl rfl rfl rfl rfl rfl rfl
  | attach _ hattaches => exact absurd (hattaches.symm.trans hparts) nofun
  | failure message => exact .fail message s

/-- A callback about no life is silent. -/
theorem silent_listen {cb : Callback} (h : concernsLives cb = false) (s : State) :
    Silent s (listen cb s) := by
  have hcreates : cb.creates = false := by cases cb <;> first | rfl | contradiction
  refine (listen_pieces hcreates s).keeps (fun s => ?_) Silent.trans (silent_of_piece h)
  exact .fields rfl rfl rfl rfl rfl rfl rfl rfl

/-! ## Creations and withdrawals -/

/-- Dealing an id leaves every record. -/
theorem kept_newId (s : State) : (newId s).2.windows = s.windows ∧ (newId s).2.outputs = s.outputs
    ∧ (newId s).2.seats = s.seats ∧ (newId s).2.requests = s.requests
    ∧ (newId s).2.stopSent = s.stopSent ∧ (Vital s → Vital (newId s).2) := by
  rcases newId_cases s with heq | heq <;> rw [heq]
  · exact ⟨rfl, rfl, rfl, rfl, rfl, fun _ => Or.inr (Or.inl rfl)⟩
  · exact ⟨rfl, rfl, rfl, rfl, rfl, fun h => h⟩

/-- A callback creates an object, which may get its part at once. -/
def Creates (kind : Kind) (s s' : State) : Prop := ∃ t, Created kind s t ∧ Attachments t s'

/-- Announcing a window creates one. -/
theorem creates_managerWindow (s : State) : Creates .window s (managerWindow s) := by
  obtain ⟨hwindows, houtputs, hseats, hrequests, hstop, hvital⟩ := kept_newId s
  refine ⟨managerWindow s,
    ⟨?_, fun other hother => ?_, fun h => ?_, hrequests, rfl, rfl, rfl, hstop,
      hvital⟩, .refl⟩
  · simp only [managerWindow, roll, hwindows, List.map_append]
    rfl
  · cases other with
    | window => contradiction
    | output => simp only [managerWindow, roll, houtputs]
    | seat => simp only [managerWindow, roll, hseats]
  · simp only [managerWindow, Suited, hwindows, List.forall_mem_append, List.forall_mem_singleton]
    exact ⟨h, trivial⟩

/-- Announcing an output creates one. -/
theorem creates_managerOutput (s : State) : Creates .output s (managerOutput s) := by
  obtain ⟨hwindows, houtputs, hseats, hrequests, hstop, hvital⟩ := kept_newId s
  refine ⟨{ (newId s).2 with outputs := (newId s).2.outputs ++ [{ id := (newId s).1 }] },
    ⟨?_, fun other hother => ?_, fun h => ?_, hrequests, rfl, rfl, rfl, hstop,
      hvital⟩,
    attachments_attachLayerOutput _ _⟩
  · simp only [roll, houtputs, List.map_append]
    rfl
  · cases other with
    | output => contradiction
    | window => simp only [roll, hwindows]
    | seat => simp only [roll, hseats]
  · simpa only [Suited, hwindows] using h

/-- Announcing a seat creates one. -/
theorem creates_managerSeat (s : State) : Creates .seat s (managerSeat s) := by
  obtain ⟨hwindows, houtputs, hseats, hrequests, hstop, hvital⟩ := kept_newId s
  refine ⟨{ (newId s).2 with
      seats := (newId s).2.seats ++ [{ id := (newId s).1 }]
      primary := if (newId s).2.primary = none then some (newId s).1 else (newId s).2.primary },
    ⟨?_, fun other hother => ?_, fun h => ?_, hrequests, rfl, rfl, rfl, hstop,
      hvital⟩,
    attachments_attachLayerSeat _ _⟩
  · simp only [roll, hseats, List.map_append]
    rfl
  · cases other with
    | seat => contradiction
    | window => simp only [roll, hwindows]
    | output => simp only [roll, houtputs]
  · simpa only [Suited, hwindows] using h

/-- Closing a window withdraws it. -/
theorem withdrawn_windowClosed (id : Nat) (s : State) :
    Withdrawn .window id s (windowClosed id s) := by
  refine ⟨roll_modifyWindow (f := fun w => { w with closed := true }) (fun _ => ⟨rfl, rfl⟩) s id,
    fun other hother => ?_, fun h => ?_, rfl, rfl, rfl, rfl, fun h => h⟩
  · cases other with
    | window => contradiction
    | output => rfl
    | seat => rfl
  · refine List.forall_mem_map.mpr fun w hw => ?_
    split
    · exact h w hw
    · exact h w hw

/-- Removing an output withdraws it. -/
theorem withdrawn_outputRemoved (id : Nat) (s : State) :
    Withdrawn .output id s (outputRemoved id s) := by
  refine ⟨roll_modifyOutput (f := fun o => { o with removed := true }) (fun _ => ⟨rfl, rfl⟩) s id,
    fun other hother => ?_, fun h => h, rfl, rfl, rfl, rfl, fun h => h⟩
  cases other with
  | output => contradiction
  | window => rfl
  | seat => rfl

/-- Removing a seat withdraws it. -/
theorem withdrawn_seatRemoved (id : Nat) (s : State) : Withdrawn .seat id s (seatRemoved id s) := by
  refine ⟨roll_modifySeat (f := fun x => { x with removed := true }) (fun _ => ⟨rfl, rfl⟩) s id,
    fun other hother => ?_, fun h => h, rfl, rfl, rfl, rfl, fun h => h⟩
  cases other with
  | seat => contradiction
  | window => rfl
  | output => rfl

/-- What a callback means to the objects. -/
inductive Notice (cb : Callback) (s s' : State) : Prop
  | silent : (∀ kind i, withdraws kind i cb = false) → Silent s s' → Notice cb s s'
  | attached (t : State) : (∀ kind i, withdraws kind i cb = false) → Silent s t →
      Attachments t s' → Notice cb s s'
  | created (kind : Kind) : (∀ kind i, withdraws kind i cb = false) →
      (∀ kind', creates kind' cb = decide (kind = kind')) → Creates kind s s' → Notice cb s s'
  | withdrawn (kind : Kind) (id : Nat) :
      (∀ kind' i, withdraws kind' i cb = decide (kind = kind' ∧ id = i)) → Withdrawn kind id s s' →
      Notice cb s s'

/-- What a callback outside a transaction does to the objects. -/
theorem notice_listen (cb : Callback) (s : State) : Notice cb s (listen cb s) := by
  cases hconcerns : concernsLives cb with
  | false => exact .silent (withdraws_of_silent hconcerns) (silent_listen hconcerns s)
  | true =>
      cases cb with
      | managerWindow =>
          exact .created .window (fun _ _ => rfl) (fun _ => by simp [creates, eq_comm])
            (creates_managerWindow s)
      | managerOutput =>
          exact .created .output (fun _ _ => rfl) (fun _ => by simp [creates, eq_comm])
            (creates_managerOutput s)
      | managerSeat =>
          exact .created .seat (fun _ _ => rfl) (fun _ => by simp [creates, eq_comm])
            (creates_managerSeat s)
      | registryLayerShell =>
          have hbound : Silent s { s with layerShell := true } :=
            .fields rfl rfl rfl rfl rfl rfl rfl rfl
          simp only [listen, registryLayerShell]
          split
          · exact .silent (fun _ _ => rfl) (.fields rfl rfl rfl rfl rfl rfl rfl rfl)
          · exact .attached _ (fun _ _ => rfl) hbound
              ((attachments_foldl (fun t id => attachments_attachLayerOutput id t) _ _).trans
                (attachments_foldl (fun t id => attachments_attachLayerSeat id t) _ _))
      | windowClosed window =>
          exact .withdrawn .window window (fun _ _ => by simp [withdraws, eq_comm])
            (withdrawn_windowClosed window s)
      | outputRemoved output =>
          exact .withdrawn .output output (fun _ _ => by simp [withdraws, eq_comm])
            (withdrawn_outputRemoved output s)
      | seatRemoved seat =>
          exact .withdrawn .seat seat (fun _ _ => by simp [withdraws, eq_comm])
            (withdrawn_seatRemoved seat s)
      | _ => contradiction

end XmonadWayland.Bridge
