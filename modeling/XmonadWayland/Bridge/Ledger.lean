import XmonadWayland.Bridge.Quiet

/-!
# XmonadWayland.Bridge.Ledger

The ids of the bridge.  Every window, output and seat gets the next number, so the
ids given out are `1, 2, …` without repetition, and the records of each list have
different ones of them.
-/

namespace XmonadWayland.Bridge

/-! ## Numbered lists -/

/-- Different ids between 1 and `next`. -/
structure Numbered (next : Nat) (ids : List Nat) : Prop where
  nodup : ids.Nodup
  positive : ∀ i ∈ ids, 1 ≤ i
  bounded : ∀ i ∈ ids, i ≤ next

namespace Numbered

variable {next : Nat} {ids ids' : List Nat}

/-- Nothing is numbered yet. -/
theorem nil (next : Nat) : Numbered next [] := ⟨List.nodup_nil, nofun, nofun⟩

/-- A part of numbered ids is numbered. -/
theorem sublist (h : Numbered next ids) (hs : ids'.Sublist ids) : Numbered next ids' :=
  ⟨h.nodup.sublist hs, fun i hi => h.positive i (hs.subset hi), fun i hi => h.bounded i (hs.subset hi)⟩

/-- A later counter numbers the same ids. -/
theorem mono (h : Numbered next ids) {next' : Nat} (hle : next ≤ next') : Numbered next' ids :=
  ⟨h.nodup, h.positive, fun i hi => (h.bounded i hi).trans hle⟩

/-- The next number is new. -/
theorem snoc (h : Numbered next ids) : Numbered (next + 1) (ids ++ [next + 1]) where
  nodup := by
    rw [List.nodup_append]
    refine ⟨h.nodup, List.nodup_singleton _, fun i hi j hj hij => ?_⟩
    have hle := h.bounded i hi
    have hj' := List.mem_singleton.mp hj
    omega
  positive i hi := by
    rcases List.mem_append.mp hi with hm | hm
    · exact h.positive i hm
    · have := List.mem_singleton.mp hm
      omega
  bounded i hi := by
    rcases List.mem_append.mp hi with hm | hm
    · exact (h.bounded i hm).trans (Nat.le_succ next)
    · exact (List.mem_singleton.mp hm).le

/-- Numbers given out in order. -/
theorem mem_issued (h : Numbered next ids) {issued : List Nat}
    (heq : issued = List.range' 1 next) {i : Nat} (hi : i ∈ ids) : i ∈ issued := by
  have hpos := h.positive i hi
  have hle := h.bounded i hi
  rw [heq, List.mem_range'_1]
  omega

end Numbered

/-- Two records of a numbered list with one id are the same. -/
theorem eq_of_numbered {α : Type} {key : α → Nat} {next : Nat} {l : List α}
    (h : Numbered next (l.map key)) {a b : α} (ha : a ∈ l) (hb : b ∈ l) (hkey : key a = key b) :
    a = b := List.inj_on_of_nodup_map h.nodup ha hb hkey

/-! ## The ledger -/

structure Ledger (s : State) : Prop where
  issued : s.issued = List.range' 1 s.nextId
  bound : s.nextId ≤ 4294967295
  windows : Numbered s.nextId (s.windows.map Window.id)
  outputs : Numbered s.nextId (s.outputs.map Output.id)
  seats : Numbered s.nextId (s.seats.map Seat.id)
  primary : ∀ id, s.primary = some id → ∃ seat ∈ s.seats, seat.id = id

/-- No id was issued twice. -/
theorem Ledger.nodup {s : State} (h : Ledger s) : s.issued.Nodup := by
  rw [h.issued]
  exact List.nodup_range'

section Ids

variable {still : Prop} {s s' : State}

/-- A quiet change keeps the windows' ids. -/
theorem Quiet.windowIds (h : Quiet still s s') :
    s'.windows.map Window.id = s.windows.map Window.id := by
  obtain ⟨f, hf, heq⟩ := h.windows
  rw [heq, List.map_map]
  exact List.map_congr_left fun w _ => (hf w).id

/-- A quiet change keeps the outputs' ids. -/
theorem Quiet.outputIds (h : Quiet still s s') :
    s'.outputs.map Output.id = s.outputs.map Output.id := by
  obtain ⟨f, hf, heq⟩ := h.outputs
  rw [heq, List.map_map]
  exact List.map_congr_left fun o _ => (hf o).id

/-- A quiet change keeps the seats' ids. -/
theorem Quiet.seatIds (h : Quiet still s s') : s'.seats.map Seat.id = s.seats.map Seat.id := by
  obtain ⟨f, hf, heq⟩ := h.seats
  rw [heq, List.map_map]
  exact List.map_congr_left fun x _ => (hf x).id

/-- A quiet change keeps the ledger. -/
theorem Ledger.quiet (hl : Ledger s) (h : Quiet still s s') : Ledger s' where
  issued := by rw [h.issued, h.nextId, hl.issued]
  bound := h.nextId ▸ hl.bound
  windows := by rw [h.windowIds, h.nextId]; exact hl.windows
  outputs := by rw [h.outputIds, h.nextId]; exact hl.outputs
  seats := by rw [h.seatIds, h.nextId]; exact hl.seats
  primary id hid := by
    obtain ⟨seat, hmem, rfl⟩ := hl.primary id (h.primary ▸ hid)
    have hmem' := List.mem_map_of_mem (f := Seat.id) hmem
    rw [← h.seatIds] at hmem'
    obtain ⟨seat', hseat', heq⟩ := List.mem_map.mp hmem'
    exact ⟨seat', hseat', heq⟩

/-- Only fields of records and the order of the lists aside from their ids differ. -/
theorem Ledger.of_sublists (hl : Ledger s) (hd : s'.issued = s.issued) (hn : s'.nextId = s.nextId)
    (hw : (s'.windows.map Window.id).Sublist (s.windows.map Window.id))
    (ho : (s'.outputs.map Output.id).Sublist (s.outputs.map Output.id))
    (hx : (s'.seats.map Seat.id).Sublist (s.seats.map Seat.id))
    (hp : ∀ id, s'.primary = some id → ∃ seat ∈ s'.seats, seat.id = id) : Ledger s' where
  issued := by rw [hd, hn, hl.issued]
  bound := hn ▸ hl.bound
  windows := hn ▸ hl.windows.sublist hw
  outputs := hn ▸ hl.outputs.sublist ho
  seats := hn ▸ hl.seats.sublist hx
  primary := hp

end Ids

/-! ## Creations -/

/-- An id that was dealt is the next one. -/
theorem newId_of_not_failed {s : State} (h : (newId s).2.failed = false) :
    s.nextId ≠ 4294967295 ∧ newId s = (s.nextId + 1,
      { s with nextId := s.nextId + 1, issued := s.issued ++ [s.nextId + 1] }) := by
  unfold newId at h ⊢
  split at h
  · contradiction
  · next hne => exact ⟨hne, by rw [if_neg hne]⟩

/-- Giving out an id. -/
theorem issued_succ {s : State} (hl : Ledger s) :
    s.issued ++ [s.nextId + 1] = List.range' 1 (s.nextId + 1) := by
  rw [hl.issued, List.range'_concat, Nat.one_mul, Nat.add_comm]

/-- Attaching a layer-shell output does not fail. -/
theorem failed_attachLayerOutput {id : Nat} {s : State} :
    (attachLayerOutput id s).failed = s.failed := by
  unfold attachLayerOutput
  split <;> rfl

/-- Attaching a layer-shell seat does not fail. -/
theorem failed_attachLayerSeat {id : Nat} {s : State} :
    (attachLayerSeat id s).failed = s.failed := by
  unfold attachLayerSeat
  split <;> rfl

/-- Announcing a window enters it in the ledger. -/
theorem ledger_managerWindow {s : State} (hl : Ledger s) (h : (managerWindow s).failed = false) :
    Ledger (managerWindow s) := by
  obtain ⟨hne, hid⟩ := newId_of_not_failed (s := s) h
  have hbound := hl.bound
  simp only [managerWindow, hid]
  exact
    { issued := issued_succ hl
      bound := by simp only; omega
      windows := by
        rw [List.map_append]
        exact hl.windows.snoc
      outputs := hl.outputs.mono (Nat.le_succ _)
      seats := hl.seats.mono (Nat.le_succ _)
      primary := hl.primary }

/-- Announcing an output enters it in the ledger. -/
theorem ledger_managerOutput {s : State} (hl : Ledger s) (h : (managerOutput s).failed = false) :
    Ledger (managerOutput s) := by
  simp only [managerOutput, failed_attachLayerOutput] at h
  obtain ⟨hne, hid⟩ := newId_of_not_failed (s := s) h
  have hbound := hl.bound
  simp only [managerOutput, hid]
  refine Ledger.quiet ?_ (quiet_attachLayerOutput _ _)
  exact
    { issued := issued_succ hl
      bound := by simp only; omega
      windows := hl.windows.mono (Nat.le_succ _)
      outputs := by
        rw [List.map_append]
        exact hl.outputs.snoc
      seats := hl.seats.mono (Nat.le_succ _)
      primary := hl.primary }

/-- Announcing a seat enters it in the ledger. -/
theorem ledger_managerSeat {s : State} (hl : Ledger s) (h : (managerSeat s).failed = false) :
    Ledger (managerSeat s) := by
  simp only [managerSeat, failed_attachLayerSeat] at h
  obtain ⟨hne, hid⟩ := newId_of_not_failed (s := s) h
  have hbound := hl.bound
  simp only [managerSeat, hid]
  refine Ledger.quiet ?_ (quiet_attachLayerSeat _ _)
  exact
    { issued := issued_succ hl
      bound := by simp only; omega
      windows := hl.windows.mono (Nat.le_succ _)
      outputs := hl.outputs.mono (Nat.le_succ _)
      seats := by
        rw [List.map_append]
        exact hl.seats.snoc
      primary := by
        intro id hprimary
        simp only at hprimary ⊢
        split at hprimary
        · rw [Option.some.injEq] at hprimary
          exact ⟨{ id := s.nextId + 1 }, List.mem_append_right _ (List.mem_singleton_self _),
            hprimary⟩
        · obtain ⟨seat, hmem, heq⟩ := hl.primary id hprimary
          exact ⟨seat, List.mem_append_left _ hmem, heq⟩ }

/-- Callbacks outside the two transactions keep the ledger. -/
theorem ledger_listen {cb : Callback} {s : State} (hl : Ledger s)
    (h : (listen cb s).failed = false) : Ledger (listen cb s) :=
  listen_induction (P := fun s' => s'.failed = false → Ledger s') (ledger_managerWindow hl)
    (ledger_managerOutput hl) (ledger_managerSeat hl) (fun _ hquiet _ => hl.quiet hquiet) cb h

/-- The first ledger is empty. -/
theorem ledger_initial : Ledger {} :=
  ⟨rfl, Nat.zero_le _, Numbered.nil _, Numbered.nil _, Numbered.nil _, nofun⟩

/-! ## The stages of a manage sequence -/

/-- Dropping outputs keeps the ledger. -/
theorem ledger_dropOutputs {sys : System} (hl : Ledger sys.bridge) :
    Ledger (dropOutputs sys).bridge :=
  hl.of_sublists rfl rfl (List.Sublist.refl _) (List.filter_sublist.map _) (List.Sublist.refl _)
    hl.primary

/-- Dropping windows keeps the ledger. -/
theorem ledger_dropWindows {sys : System} (hl : Ledger sys.bridge) :
    Ledger (dropWindows sys).bridge :=
  hl.of_sublists rfl rfl (List.filter_sublist.map _) (List.Sublist.refl _) (List.Sublist.refl _)
    hl.primary

end XmonadWayland.Bridge
