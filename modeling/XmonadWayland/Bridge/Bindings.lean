import XmonadWayland.Bridge.Locked
import XmonadWayland.Bridge.Release

/-!
# XmonadWayland.Bridge.Bindings

The key table exists twice, as the list of a seat's bindings and as the configuration.
Only the primary seat has bindings, it gets them once per configuration, and the queue
holds keys of the present table only (`Bound`).  Hence a key that is delivered means the
entry its binding was created for.
-/

namespace XmonadWayland.Bridge

/-! ## The table -/

/-- The entries of a configuration, then those of the picker. -/
def keyTable (cfg : Config) : List KeyBinding := cfg.keyBindings ++ pickerBindings

/-- The binding created for an entry. -/
def registration (entry : KeyBinding) (index : Nat) : Binding :=
  ⟨entry.bindingKeysym, entry.bindingModifiers, index, entry.bindingMode.fromEnum, false⟩

/-- A binding as it was created. -/
def Binding.created (binding : Binding) : Binding := { binding with enabled := false }

/-- The bindings created for a table, in order. -/
def registrations (cfg : Config) : List Binding :=
  (keyTable cfg).zipIdx.map fun p => registration p.1 p.2

/-- A registered binding is an entry of the key table under its index. -/
theorem mem_registrations {cfg : Config} {binding : Binding} :
    binding ∈ registrations cfg ↔ ∃ entry, (keyTable cfg)[binding.index]? = some entry
      ∧ binding = registration entry binding.index := by
  simp only [registrations, List.mem_map, Prod.exists, List.mk_mem_zipIdx_iff_getElem?]
  constructor
  · rintro ⟨entry, index, hentry, rfl⟩
    exact ⟨entry, hentry, rfl⟩
  · rintro ⟨entry, hentry, heq⟩
    exact ⟨entry, _, hentry, heq.symm⟩

/-- The seat with more bindings. -/
def Seat.bind (bindings : List Binding) (seat : Seat) : Seat :=
  { seat with bindings := bindings ++ seat.bindings }

/-- The key bindings of the seats and the keys queued fit the configuration. -/
structure Bound (cfg : Config) (s : State) : Prop where
  configured : ∀ seat ∈ s.seats, seat.configured = true →
    s.primary = some seat.id ∧ seat.bindings.map Binding.created = (registrations cfg).reverse
  fresh : ∀ seat ∈ s.seats, seat.configured = false → seat.bindings = []
  input : ∀ e ∈ s.input, e.kind = .binding → e.id < (keyTable cfg).length

/-- The primary seat has its bindings. -/
def Equipped (s : State) : Prop := ∀ seat, primarySeat s = some seat → seat.configured = true

/-- Key bindings are switched at most. -/
structure Rebound (s s' : State) : Prop where
  seats : ∃ f : Seat → Seat, (∀ x, (f x).id = x.id ∧ (f x).configured = x.configured
    ∧ (f x).bindings.map Binding.created = x.bindings.map Binding.created) ∧ s'.seats = s.seats.map f
  primary : s'.primary = s.primary

section Rebound

variable {cfg : Config} {s s' s'' : State}

theorem Rebound.trans (h : Rebound s s') (h' : Rebound s' s'') : Rebound s s'' := by
  obtain ⟨f, hf, heq⟩ := h.seats
  obtain ⟨g, hg, heq'⟩ := h'.seats
  refine ⟨⟨fun x => g (f x), fun x => ?_, by rw [heq', heq, List.map_map]; rfl⟩,
    h'.primary.trans h.primary⟩
  exact ⟨(hg _).1.trans (hf x).1, (hg _).2.1.trans (hf x).2.1, (hg _).2.2.trans (hf x).2.2⟩

/-- Seats that are kept keep their bindings. -/
theorem SeatsKept.rebound (h : SeatsKept s s') (hprimary : s'.primary = s.primary) :
    Rebound s s' := by
  obtain ⟨f, hf, heq⟩ := h
  exact ⟨⟨f, fun x => ⟨(hf x).id, (hf x).configured, congrArg _ (hf x).bindings⟩, heq⟩, hprimary⟩

theorem Rebound.fields (hseats : s'.seats = s.seats) (hprimary : s'.primary = s.primary) :
    Rebound s s' := (SeatsKept.fields hseats).rebound hprimary

/-- What leaves the seats leaves their bindings. -/
theorem Leaves.rebound (h : Leaves s s') : Rebound s s' := h.seats.rebound h.primary

/-- Kept bindings still fit the configuration. -/
theorem Bound.rebound (h : Bound cfg s) (hr : Rebound s s')
    (hinput : ∀ e ∈ s'.input, e.kind = .binding → e ∈ s.input ∨ e.id < (keyTable cfg).length) :
    Bound cfg s' := by
  obtain ⟨f, hf, heq⟩ := hr.seats
  refine ⟨?_, ?_, fun e he hkind => (hinput e he hkind).elim (fun hold => h.input e hold hkind) id⟩
  · rw [heq, List.forall_mem_map]
    intro seat hmem hconfigured
    obtain ⟨hprimary, hbindings⟩ := h.configured seat hmem ((hf seat).2.1.symm.trans hconfigured)
    rw [(hf seat).1, (hf seat).2.2, hr.primary]
    exact ⟨hprimary, hbindings⟩
  · rw [heq, List.forall_mem_map]
    intro seat hmem hfresh
    have hnone := h.fresh seat hmem ((hf seat).2.1.symm.trans hfresh)
    have hcreated := (hf seat).2.2
    rw [hnone, List.map_nil, List.map_eq_nil_iff] at hcreated
    exact hcreated

/-- Nothing new is queued. -/
theorem Bound.still (h : Bound cfg s) (hr : Rebound s s') (hinput : s'.input = s.input) :
    Bound cfg s' := h.rebound hr fun _ he _ => Or.inl (hinput ▸ he)

theorem Bound.fields (h : Bound cfg s) (hseats : s'.seats = s.seats)
    (hprimary : s'.primary = s.primary) (hinput : s'.input = s.input) : Bound cfg s' :=
  h.still (Rebound.fields hseats hprimary) hinput

/-- Kept bindings leave the seats equipped. -/
theorem Equipped.rebound (h : Equipped s) (hr : Rebound s s') : Equipped s' := by
  obtain ⟨f, hf, heq⟩ := hr.seats
  intro seat' hsome
  have hfind : primarySeat s' = (primarySeat s).map f := by
    unfold primarySeat
    rw [hr.primary, heq]
    cases s.primary with
    | none => rfl
    | some id =>
        simp only [Option.bind_some, List.find?_map]
        congr 2
        funext x
        simp [(hf x).1]
  rw [hfind] at hsome
  obtain ⟨seat, hseat, rfl⟩ := Option.map_eq_some_iff.mp hsome
  exact (hf seat).2.1.trans (h seat hseat)

end Rebound

/-! ## Callbacks -/

/-- A key of a bound seat is in the table. -/
theorem Bound.index_lt {cfg : Config} {s : State} (h : Bound cfg s) {seat : Seat}
    (hseat : seat ∈ s.seats) {binding : Binding} (hb : binding ∈ seat.bindings) :
    ∃ entry, (keyTable cfg)[binding.index]? = some entry
      ∧ binding.created = registration entry binding.index := by
  cases hconfigured : seat.configured with
  | false =>
      rw [h.fresh seat hseat hconfigured] at hb
      contradiction
  | true =>
      have hmem := List.mem_map_of_mem (f := Binding.created) hb
      rw [(h.configured seat hseat hconfigured).2, List.mem_reverse] at hmem
      exact mem_registrations.mp hmem

/-- What a callback records keeps the bindings in the table. -/
theorem Bound.heard {cfg : Config} {cb : Callback} {s s' : State} (h : Bound cfg s)
    (hheard : Heard cb s s') : Bound cfg s' := by
  refine h.rebound (hheard.seats.rebound hheard.primary) fun e he hkind => ?_
  refine (hheard.input e he).imp_right fun hpressed => ?_
  obtain ⟨-, seat, hseat, -, binding, hb, hidx⟩ := hpressed hkind
  obtain ⟨entry, hentry, -⟩ := h.index_lt hseat hb
  exact hidx ▸ (List.getElem?_eq_some_iff.mp hentry).1

section Manage

variable {cfg : Config} {sys : System}

end Manage

/-! ## Every run -/

end XmonadWayland.Bridge
