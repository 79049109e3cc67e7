import XmonadWayland.Base.Monitor
import XmonadWayland.Bridge.Desk

/-!
# XmonadWayland.Bridge.Custody

The descriptor of the picker.  `custody` follows one descriptor through the log: it is
closed by the one that opened it, or after it was returned and before it is returned
again.  Once an overlay has been put up the picker keeps to that; before, its descriptor
is the zero of a static.
-/

namespace XmonadWayland.Bridge

/-! ## One descriptor -/

/-- How often a descriptor is open and not yet returned, and returned and not yet closed. -/
def custody (fd : Nat) (held : Nat × Nat) : OsCall → Option (Nat × Nat)
  | .opened n => if n = fd then some (held.1 + 1, held.2) else some held
  | .discarded n =>
    if n ≠ fd then some held else if held.1 = 0 then none else some (held.1 - 1, held.2)
  | .returned n _ =>
    if n ≠ fd then some held else if held.1 = 0 then none else some (held.1 - 1, held.2 + 1)
  | .closed n =>
    if n ≠ fd then some held else if held.2 = 0 then none else some (held.1, held.2 - 1)
  | _ => some held

/-- The call puts the overlay up. -/
def PutsUp (s : State) (p : Picker) (c : PickerCall) : Prop :=
  ∃ count, c = .pickerShow count .created ∧ (pickerPlace s count p).isSome

/-- The overlay has been put up. -/
def PutUp (calls : List (State × PickerCall)) : Prop :=
  ∃ earlier s c later, calls = earlier ++ (s, c) :: later ∧ PutsUp s (runPicker earlier) c

/-- A hide finds an overlay that was put up. -/
def HidesShown (calls : List (State × PickerCall)) (c : State × PickerCall) : Prop :=
  c.2 = .pickerHide → PutUp calls

/-! ## The picker with its descriptor -/

/-- If the picker has the descriptor, it has been returned and not been closed. -/
def Keeps (fd : Nat) (held : Nat × Nat) (p : Picker) : Prop :=
  held.1 = 0 ∧ (p.overlay.fd = fd → held.2 ≠ 0)

/-- The log so far is acceptable. -/
def Custody (fd : Nat) (p : Picker) : Prop :=
  ∃ held, runMonitor (custody fd) (0, 0) p.log = some held ∧ Keeps fd held p

variable {fd : Nat} {p : Picker}

theorem Custody.fields {p' : Picker} (h : Custody fd p) (hlog : p'.log = p.log)
    (hfd : p'.overlay.fd = p.overlay.fd ∨ p'.overlay.fd = -1) : Custody fd p' := by
  obtain ⟨held, hrun, hnone, hheld⟩ := h
  refine ⟨held, hlog ▸ hrun, hnone, fun hsame => ?_⟩
  rcases hfd with hfd | hfd
  · exact hheld (hfd ▸ hsame)
  · rw [hfd] at hsame
    omega

/-- Writes to the descriptor keep it held. -/
theorem runMonitor_wrote (held : Nat × Nat) (indices : List Nat) :
    runMonitor (custody fd) held (indices.map .wrote) = some held :=
  runMonitor_of_ignored (List.forall_mem_map.mpr fun _ _ _ => rfl)

/-- Releasing closes what was returned. -/
theorem Custody.release (h : Custody fd p) : Custody fd (pickerReleaseBuffer p) := by
  obtain ⟨held, hrun, hnone, hheld⟩ := h
  have hunmapped : runMonitor (custody fd) held
      (if p.overlay.pixels then [.unmapped (p.overlay.stride * p.overlay.height)] else [])
        = some held := by
    split <;> rfl
  have hgone : (pickerReleaseBuffer p).overlay.fd ≠ fd := by
    change (if 0 ≤ p.overlay.fd then (-1 : Int) else p.overlay.fd) ≠ fd
    split <;> omega
  have hlog : (pickerReleaseBuffer p).log = p.log ++ releaseCalls p.overlay := rfl
  by_cases hfd : 0 ≤ p.overlay.fd
  · have hrest : runMonitor (custody fd) held (releaseCalls p.overlay)
        = custody fd held (.closed p.overlay.fd.toNat) := by
      rw [releaseCalls, runMonitor_append, hunmapped, Option.bind_some, if_pos hfd,
        runMonitor_singleton]
    by_cases hsame : p.overlay.fd.toNat = fd
    · have hreturned : held.2 ≠ 0 := hheld (by omega)
      refine ⟨(held.1, held.2 - 1), ?_, hnone, fun heq => absurd heq hgone⟩
      rw [hlog, runMonitor_append, hrun, Option.bind_some, hrest]
      simp [custody, hsame, hreturned]
    · refine ⟨held, ?_, hnone, fun heq => absurd heq hgone⟩
      rw [hlog, runMonitor_append, hrun, Option.bind_some, hrest]
      simp [custody, hsame]
  · refine ⟨held, ?_, hnone, fun heq => absurd heq hgone⟩
    rw [hlog, runMonitor_append, hrun, Option.bind_some, releaseCalls, runMonitor_append,
      hunmapped, Option.bind_some, if_neg hfd]
    rfl

/-- Opening a descriptor and discarding or returning it. -/
theorem Custody.open (h : Custody fd p) (bytes : Nat) (a : Allocation) (p' : Picker)
    (hlog : p'.log = p.log ++ (pickerShmFd bytes a).2)
    (hfd : p'.overlay.fd = (pickerShmFd bytes a).1) : Custody fd p' := by
  obtain ⟨held, hrun, hnone, hheld⟩ := h
  cases a with
  | noDescriptor =>
      refine ⟨held, ?_, hnone, fun heq => ?_⟩
      · rw [hlog, pickerShmFd, List.append_nil, hrun]
      · rw [hfd, pickerShmFd] at heq
        omega
  | unusable n =>
      refine ⟨held, ?_, hnone, fun heq => ?_⟩
      · rw [hlog, runMonitor_append, hrun, Option.bind_some, pickerShmFd, runMonitor_cons]
        by_cases hn : n = fd
        · simp [custody, hn, runMonitor_singleton]
        · simp [custody, hn, runMonitor_singleton]
      · rw [hfd, pickerShmFd] at heq
        omega
  | shared n pool buffer =>
      rw [pickerShmFd] at hlog hfd
      by_cases hn : n = fd
      · refine ⟨(held.1, held.2 + 1), ?_, hnone, fun _ => Nat.succ_ne_zero _⟩
        rw [hlog, runMonitor_append, hrun, Option.bind_some, runMonitor_cons]
        simp [custody, hn, runMonitor_singleton]
      · refine ⟨held, ?_, hnone, fun heq => ?_⟩
        · rw [hlog, runMonitor_append, hrun, Option.bind_some, runMonitor_cons]
          simp [custody, hn, runMonitor_singleton]
        · rw [hfd] at heq
          omega

/-- A descriptor that is returned is the picker's. -/
theorem Custody.allocate (h : Custody fd p) (stride : Nat) (a : Allocation) :
    Custody fd (pickerAllocate stride a p) := by
  have hopened := h.release.open (stride * (pickerReleaseBuffer p).overlay.height) a
  unfold pickerAllocate
  cases a with
  | noDescriptor => exact hopened _ rfl rfl
  | unusable n => exact hopened _ rfl rfl
  | shared n pool buffer =>
      simp only
      split
      · exact (hopened _ rfl rfl).release
      · exact hopened _ rfl rfl

/-- Painting keeps the descriptor in custody. -/
theorem Custody.paint (h : Custody fd p) (s : State) : Custody fd (pickerPaint s p) := by
  obtain ⟨held, hrun, hkeeps⟩ := h
  refine ⟨held, ?_, hkeeps⟩
  rw [pickerPaint, runMonitor_append, hrun, Option.bind_some, runMonitor_cons]
  exact runMonitor_wrote held _

/-- Redrawing keeps it in custody. -/
theorem Custody.redraw (h : Custody fd p) (s : State) (a : Allocation) :
    Custody fd (pickerRedraw s a p) := by
  have hallocated := h.allocate (p.overlay.width * 4 % 4294967296) a
  unfold pickerRedraw
  simp only
  split
  · exact h
  split
  · split
    · exact hallocated
    · exact hallocated.paint s
  · exact h.paint s

/-- Hiding keeps it in custody. -/
theorem Custody.hide (h : Custody fd p) : Custody fd (xwPickerHide p) :=
  h.release.fields rfl (Or.inl rfl)

/-- So does withdrawing the picker. -/
theorem Custody.withdraw (h : Custody fd p) : Custody fd (pickerWithdraw p) := by
  unfold pickerWithdraw
  split
  · exact h.hide
  · exact h

/-- After the overlay has been put up, every call keeps to its descriptor. -/
theorem Custody.call (h : Custody fd p) (s : State) (c : PickerCall) : Custody fd (p.call s c) := by
  cases c with
  | bindCompositor bound => exact h.fields rfl (Or.inl rfl)
  | bindShm bound => exact h.fields rfl (Or.inl rfl)
  | bindWlrLayerShell bound => exact h.fields rfl (Or.inl rfl)
  | pickerShow count creation =>
      simp only [Picker.call, xwPickerShow]
      split
      · exact h.fields rfl (Or.inr rfl)
      · exact h.fields rfl (Or.inl rfl)
      · exact h.fields rfl (Or.inl rfl)
      · exact h
  | pickerLabel index label =>
      simp only [Picker.call, xwPickerLabel]
      split
      · exact h
      · exact h.fields rfl (Or.inl rfl)
  | pickerHide => exact h.hide
  | layerConfigure width height a =>
      have hsized : Custody fd { p with overlay := { p.overlay with
          width := width, height := height, configured := true } } := h.fields rfl (Or.inl rfl)
      simp only [Picker.call, pickerLayerConfigure]
      split
      · exact h
      · exact hsized.redraw s a
  | layerClosed =>
      simp only [Picker.call, pickerLayerClosed]
      split
      · exact h
      · exact h.fields rfl (Or.inl rfl)
  | failed => exact h.withdraw
  | finished => exact h.withdraw

/-! ## Before the first overlay -/

/-- Nothing has been asked of the kernel, and the descriptor is still zero. -/
structure Idle (p : Picker) : Prop where
  log : p.log = []
  fd : p.overlay.fd = 0
  pixels : p.overlay.pixels = false
  active : p.active = false
  listeners : p.listeners = 0

/-- An idle picker stays idle under every call but a hide and a show. -/
theorem idle_call {s : State} {c : PickerCall} (h : Idle p) (hhide : c ≠ .pickerHide)
    (hshow : ¬PutsUp s p c) : Idle (p.call s c) := by
  cases c with
  | bindCompositor bound => exact ⟨h.log, h.fd, h.pixels, h.active, h.listeners⟩
  | bindShm bound => exact ⟨h.log, h.fd, h.pixels, h.active, h.listeners⟩
  | bindWlrLayerShell bound => exact ⟨h.log, h.fd, h.pixels, h.active, h.listeners⟩
  | pickerShow count creation =>
      simp only [Picker.call, xwPickerShow]
      cases hplace : pickerPlace s count p with
      | none => exact h
      | some output =>
          cases creation with
          | created => exact absurd ⟨count, rfl, by simp [hplace]⟩ hshow
          | noSurface => exact ⟨h.log, h.fd, h.pixels, h.active, h.listeners⟩
          | noLayerSurface => exact ⟨h.log, h.fd, h.pixels, h.active, h.listeners⟩
  | pickerLabel index label =>
      simp only [Picker.call, xwPickerLabel]
      split
      · exact h
      · exact ⟨h.log, h.fd, h.pixels, h.active, h.listeners⟩
  | pickerHide => contradiction
  | layerConfigure width height a =>
      rw [Picker.call, pickerLayerConfigure, if_pos h.listeners]
      exact h
  | layerClosed =>
      rw [Picker.call, pickerLayerClosed, if_pos h.listeners]
      exact h
  | failed =>
      simp only [Picker.call, pickerWithdraw, h.active]
      exact h
  | finished =>
      simp only [Picker.call, pickerWithdraw, h.active]
      exact h

/-! ## Every sequence of calls -/

/-- The picker was put up before the last call or by it. -/
theorem putUp_snoc {calls : List (State × PickerCall)} {s : State} {c : PickerCall} :
    PutUp (calls ++ [(s, c)]) ↔ PutUp calls ∨ PutsUp s (runPicker calls) c := by
  constructor
  · rintro ⟨earlier, s', c', later, heq, hputs⟩
    rcases List.eq_nil_or_concat later with rfl | ⟨later, last, rfl⟩
    · obtain ⟨rfl, hlast⟩ := List.append_inj' heq rfl
      obtain ⟨rfl, rfl⟩ := Prod.mk.inj (List.cons.inj hlast).1
      exact Or.inr hputs
    · rw [List.concat_eq_append, ← List.cons_append, ← List.append_assoc] at heq
      exact Or.inl ⟨earlier, s', c', later, (List.append_inj' heq rfl).1, hputs⟩
  · rintro (⟨earlier, s', c', later, rfl, hputs⟩ | hputs)
    · exact ⟨earlier, s', c', later ++ [(s, c)], by simp, hputs⟩
    · exact ⟨calls, s, c, [], rfl, hputs⟩

/-- Idle until the overlay is put up, then in custody. -/
def InCustody (fd : Nat) (calls : List (State × PickerCall)) (held : Nat × Nat) : Prop :=
  (Idle (runPicker calls) ∧ ¬PutUp calls) ∨ (Keeps fd held (runPicker calls) ∧ PutUp calls)

/-- One more call keeps the descriptor in custody. -/
theorem inCustody_step {calls : List (State × PickerCall)} {c : State × PickerCall}
    {held : Nat × Nat} (hrun : runMonitor (custody fd) (0, 0) (runPicker calls).log = some held)
    (h : InCustody fd calls held) (hgood : HidesShown calls c) :
    ∃ held', runMonitor (custody fd) (0, 0) (runPicker (calls ++ [c])).log = some held'
      ∧ InCustody fd (calls ++ [c]) held' := by
  obtain ⟨s, c⟩ := c
  unfold InCustody
  rw [runPicker_snoc, putUp_snoc]
  rcases h with ⟨hidle, hnone⟩ | ⟨hkeeps, hput⟩
  · by_cases hputs : PutsUp s (runPicker calls) c
    · obtain ⟨count, rfl, hplace⟩ := hputs
      obtain ⟨output, houtput⟩ := Option.isSome_iff_exists.mp hplace
      have hlog : ((runPicker calls).call s (.pickerShow count .created)).log = []
          ∧ ((runPicker calls).call s (.pickerShow count .created)).overlay.fd = -1 := by
        rw [Picker.call, xwPickerShow_created houtput]
        exact ⟨hidle.log, rfl⟩
      refine ⟨(0, 0), by rw [hlog.1]; rfl, Or.inr ⟨⟨rfl, fun heq => ?_⟩, Or.inr ⟨count, rfl, hplace⟩⟩⟩
      rw [hlog.2] at heq
      omega
    · have hstill := idle_call hidle (fun hhide => hnone (hgood hhide)) hputs
      exact ⟨(0, 0), by rw [hstill.log]; rfl, Or.inl ⟨hstill, not_or.mpr ⟨hnone, hputs⟩⟩⟩
  · obtain ⟨held', hrun', hkeeps'⟩ := Custody.call ⟨held, hrun, hkeeps⟩ s c
    exact ⟨held', hrun', Or.inr ⟨hkeeps', Or.inl hput⟩⟩

/-- Hiding an overlay that was never put up closes the standard input. -/
theorem custody_early_hide {calls : List (State × PickerCall)} {c : State × PickerCall}
    {held : Nat × Nat} (h : InCustody 0 calls held) (hbad : ¬HidesShown calls c) :
    runMonitor (custody 0) (0, 0) (runPicker (calls ++ [c])).log = none := by
  obtain ⟨s, c⟩ := c
  obtain ⟨rfl, hnone⟩ : c = .pickerHide ∧ ¬PutUp calls := Classical.not_imp.mp hbad
  rcases h with ⟨hidle, -⟩ | ⟨-, hput⟩
  · have hlog : (runPicker (calls ++ [(s, .pickerHide)])).log = [.closed 0] := by
      rw [runPicker_snoc]
      change (runPicker calls).log ++ releaseCalls (runPicker calls).overlay = _
      rw [hidle.log, releaseCalls, hidle.pixels, hidle.fd]
      rfl
    rw [hlog]
    rfl
  · exact absurd hput hnone

end XmonadWayland.Bridge

namespace XmonadWayland

open Bridge

/-- The picker only closes descriptors it has been given, and each of them once: every
descriptor is discarded by the allocation that opened it or closed after it was returned,
and not closed again before it is returned again. -/
def OwnsDescriptors (log : List OsCall) : Prop :=
  ∀ fd, (runMonitor (custody fd) (0, 0) log).isSome

/-- **Descriptors of the picker**: whatever is called in whatever states of the bridge,
the picker only closes what it owns exactly if no overlay is hidden before one was put
up. -/
theorem descriptors_owned_iff (calls : List (Bridge.State × PickerCall)) :
    OwnsDescriptors (runPicker calls).log
      ↔ ∀ earlier c later, calls = earlier ++ c :: later → HidesShown earlier c := by
  have hnil : ∀ fd, ∃ held, runMonitor (custody fd) (0, 0) (runPicker []).log = some held
      ∧ InCustody fd [] held := by
    refine fun fd => ⟨(0, 0), rfl, Or.inl ⟨⟨rfl, rfl, rfl, rfl, rfl⟩, ?_⟩⟩
    rintro ⟨earlier, s, c, later, heq, -⟩
    simp at heq
  constructor
  · intro howns
    exact good_of_runMonitor (fun calls => (runPicker calls).log) (hnil 0)
      (fun calls c => runPicker_snoc calls c.1 c.2 ▸ log_call (runPicker calls) c.1 c.2)
      (fun calls c held _ hrun h hgood => inCustody_step hrun h hgood)
      (fun calls c held _ _ h hbad => custody_early_hide h hbad) calls (fun _ _ => trivial) (howns 0)
  · intro hgood fd
    obtain ⟨held, hrun, -⟩ := runMonitor_of_good (fun calls => (runPicker calls).log) (hnil fd)
      (fun calls c held _ hrun h hgood => inCustody_step hrun h hgood) calls (fun _ _ => trivial) hgood
    exact Option.isSome_iff_exists.mpr ⟨held, hrun⟩

/-- Locking a session that never showed the picker closes the standard input. -/
theorem lock_closes_input :
    ¬OwnsDescriptors (runDesk [.callback .registryXkb, .callback .managerLocked,
      .callback .managerManageStart] (initialDesk defaultConfig [] (fun _ => "") [])).picker.log := by
  intro h
  have hinput := h 0
  revert hinput
  decide +kernel

end XmonadWayland
