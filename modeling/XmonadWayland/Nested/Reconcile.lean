import XmonadWayland.Nested.World

/-!
# XmonadWayland.Nested.Reconcile

What a reconcile can do, said once: end the loop, release the mode while River is not
focused, hold while it is, or capture.  The end of the loop restores at most.
-/

namespace XmonadWayland.Nested

namespace Sway

variable {s s' : Sway} {name : String}

/-- A mode can always be defined. -/
@[simp] theorem command_define (s : Sway) (name : String) :
    s.command (.define name) = some { s with modes := name :: s.modes } := rfl

/-- Only a mode there is can be selected, which is reported. -/
theorem command_select (h : s.command (.select name) = some s') :
    name ∈ s.modes ∧ s'.tree = s.tree ∧ s'.mode = name ∧ s'.modes = s.modes
      ∧ s'.events = s.events ++ [⟨0x80000002, some name, none⟩] := by
  simp only [command, Option.ite_none_right_eq_some, Option.some.injEq] at h
  obtain ⟨hmem, rfl⟩ := h
  exact ⟨hmem, rfl, rfl, rfl, rfl⟩

end Sway

namespace NestedInput

/-- River's window has the focus, for the helper. -/
def focusedIn (h : NestedInput) (s : Sway) : Bool := (riverWindows s.tree h.pid).any Node.focused

/-- The helper has looked at the tree. -/
def looked (h : NestedInput) (s : Sway) : NestedInput :=
  { h with seen := h.seen ∨ ¬(riverWindows s.tree h.pid).isEmpty }

/-- The helper has noticed, with River focused, which mode is selected. -/
def noticed (h : NestedInput) (s : Sway) : NestedInput :=
  { looked h s with
    owned := h.owned && s.mode = h.name
    blocked := h.blocked || (h.owned && s.mode ≠ h.name) || s.mode ∉ ["default", h.name] }

variable {processExists : Bool} {h : NestedInput} {s : Sway}

/-- The own mode is left for the default one. -/
theorem restore_mine (hdefined : h.defined = true) (hmode : s.mode = h.name) :
    h.restore s
      = (s.command (.select "default")).map fun s' => ({ h with owned := false }, s') :=
  if_pos ⟨hdefined, hmode⟩

/-- Any other mode is left alone. -/
theorem restore_other (hother : ¬(h.defined = true ∧ s.mode = h.name)) :
    h.restore s = some ({ h with owned := false }, s) := if_neg hother

/-- What a reconcile can do. -/
inductive Reconciles (h : NestedInput) (s : Sway) : Reconciled → Prop
  | ends : Reconciles h s ⟨some false, h, s⟩
  | leaves : h.focusedIn s = false → (s.mode = h.name → h.defined = false) →
      Reconciles h s ⟨some true, { looked h s with blocked := false, owned := false }, s⟩
  | restores (s' : Sway) : h.focusedIn s = false → s.mode = h.name →
      s.command (.select "default") = some s' →
      Reconciles h s ⟨some true, { looked h s with blocked := false, owned := false }, s'⟩
  | keeps : h.focusedIn s = false → s.command (.select "default") = none →
      Reconciles h s ⟨none, { looked h s with blocked := false }, s⟩
  | holds : h.focusedIn s = true →
      (s.mode ≠ "default" ∨ (noticed h s).blocked = true ∨ (noticed h s).stopping = true) →
      Reconciles h s ⟨some true, noticed h s, s⟩
  | captures (s₁ s₂ : Sway) : h.focusedIn s = true → s.mode = "default" →
      (noticed h s).blocked = false → (s₁ = s ∨ s.command (.define h.name) = some s₁) →
      s₁.command (.select h.name) = some s₂ →
      Reconciles h s ⟨some true, { noticed h s with defined := true, owned := true }, s₂⟩
  | fails (s₁ : Sway) : h.focusedIn s = true → s.mode = "default" → (noticed h s).blocked = false →
      (s₁ = s ∨ s.command (.define h.name) = some s₁) → s₁.command (.select h.name) = none →
      Reconciles h s ⟨none, { noticed h s with defined := true, owned := true }, s₁⟩

/-- The code's two checks set the flags to those of `noticed`. -/
theorem noticed_eq (h : NestedInput) (s : Sway) :
    (let h := looked h s
     let h := if h.owned ∧ s.mode ≠ h.name then { h with owned := false, blocked := true } else h
     if s.mode ∉ ["default", h.name] then { h with blocked := true } else h) = noticed h s := by
  obtain ⟨pid, name, defined, owned, blocked, seen, stopping⟩ := h
  by_cases hmode : s.mode = name
  · cases owned <;> cases blocked <;> simp [looked, noticed, hmode]
  · by_cases hdefault : s.mode = "default"
    · have hne : "default" ≠ name := hdefault ▸ hmode
      cases owned <;> cases blocked <;> simp [looked, noticed, hdefault, hne]
    · cases owned <;> cases blocked <;> simp [looked, noticed, hmode, hdefault]

/-- While River is focused, `reconcile` goes by what the helper has noticed. -/
theorem reconcile_focused (h : NestedInput) (s : Sway) (hgo : h.stopping = false)
    (hexists : processExists = true) (hfocus : h.focusedIn s = true) :
    h.reconcile processExists s
      = if s.mode ≠ "default" ∨ (noticed h s).blocked ∨ (noticed h s).stopping then
          ⟨some true, noticed h s, s⟩
        else capture processExists (noticed h s) s := by
  have hsome : (riverWindows s.tree h.pid).isEmpty = false := by
    unfold focusedIn at hfocus
    cases hwindows : riverWindows s.tree h.pid with
    | nil => simp [hwindows] at hfocus
    | cons => rfl
  have hgoes : ¬(h.stopping = true ∨ ¬processExists = true) := by simp [hgo, hexists]
  have hthere : ¬(h.seen = true ∧ (riverWindows s.tree h.pid).isEmpty = true) := by simp [hsome]
  have hfocused : ¬¬(riverWindows s.tree h.pid).any Node.focused = true := not_not.mpr hfocus
  let rest (h : NestedInput) : Reconciled :=
    if s.mode ≠ "default" ∨ h.blocked ∨ h.stopping then ⟨some true, h, s⟩
    else capture processExists h s
  unfold reconcile
  rw [if_neg hgoes]
  dsimp only
  rw [if_neg hthere, if_neg hfocused]
  exact congrArg rest (noticed_eq h s)

/-- The second look shows what the first one did: the mode is entered. -/
theorem reconciles_recheck {s₁ : Sway} (hfocus : h.focusedIn s = true) (hmode : s.mode = "default")
    (hblocked : (noticed h s).blocked = false) (hgo : h.stopping = false)
    (hexists : processExists = true) (hs₁ : s₁ = s ∨ s.command (.define h.name) = some s₁) :
    Reconciles h s (recheck processExists { noticed h s with defined := true } s₁) := by
  have hlook : ¬(h.stopping = true ∨ ¬processExists = true
      ∨ ¬(riverWindows s₁.tree h.pid).any Node.focused = true ∨ s₁.mode ≠ "default") := by
    have hsame : s₁.tree = s.tree ∧ s₁.mode = s.mode := by
      rcases hs₁ with rfl | hdefine
      · exact ⟨rfl, rfl⟩
      · rw [← Option.some.inj hdefine]
        exact ⟨rfl, rfl⟩
    rw [focusedIn, ← hsame.1] at hfocus
    simp [hgo, hexists, hfocus, hsame.2, hmode]
  have henter : recheck processExists { noticed h s with defined := true } s₁
      = enter { noticed h s with defined := true } s₁ := if_neg hlook
  rw [henter, enter]
  cases hselect : s₁.command (.select h.name) with
  | none =>
      have hfails := Reconciles.fails s₁ hfocus hmode hblocked hs₁ hselect
      simpa only [noticed, looked, hselect] using hfails
  | some s₂ =>
      have hcaptures := Reconciles.captures s₁ s₂ hfocus hmode hblocked hs₁ hselect
      simpa only [noticed, looked, hselect] using hcaptures

/-- With the focus in the default mode, the helper captures. -/
theorem reconciles_capture (hfocus : h.focusedIn s = true) (hmode : s.mode = "default")
    (hblocked : (noticed h s).blocked = false) (hgo : h.stopping = false)
    (hexists : processExists = true) :
    Reconciles h s (capture processExists (noticed h s) s) := by
  have hrecheck : ∀ s₁, (s₁ = s ∨ s.command (.define h.name) = some s₁) →
      Reconciles h s (recheck processExists { noticed h s with defined := true } s₁) :=
    fun _ => reconciles_recheck hfocus hmode hblocked hgo hexists
  by_cases hdefined : (noticed h s).defined = true
  · have hsame : { noticed h s with defined := true } = noticed h s := by
      rw [NestedInput.mk.injEq]
      simp [hdefined]
    rw [capture, if_neg (not_not.mpr hdefined), ← hsame]
    exact hrecheck s (Or.inl rfl)
  · rw [capture, if_pos hdefined, Sway.command_define]
    exact hrecheck _ (Or.inr (Sway.command_define s h.name))

/-- Without the focus, the own mode is left. -/
theorem reconciles_release (hfocus : h.focusedIn s = false) (hmode : s.mode = h.name) :
    Reconciles h s (release { looked h s with blocked := false } s) := by
  rw [release]
  by_cases hdefined : h.defined = true
  · rw [restore_mine (h := { looked h s with blocked := false }) hdefined hmode]
    cases hselect : s.command (.select "default") with
    | none => exact .keeps hfocus hselect
    | some s' => exact .restores s' hfocus hmode hselect
  · rw [restore_other (h := { looked h s with blocked := false }) fun hmine => hdefined hmine.1]
    exact .leaves hfocus fun _ => Bool.not_eq_true _ ▸ hdefined

/-- While River is not focused, the helper owns nothing and does not hold back. -/
theorem reconciles_unfocused (hgo : h.stopping = false) (hexists : processExists = true)
    (hfocus : h.focusedIn s = false) : Reconciles h s (h.reconcile processExists s) := by
  have hgoes : ¬(h.stopping = true ∨ ¬processExists = true) := by simp [hgo, hexists]
  have hunfocused : ¬(riverWindows s.tree h.pid).any Node.focused = true := by
    rw [focusedIn] at hfocus
    simp [hfocus]
  unfold reconcile
  rw [if_neg hgoes]
  dsimp only
  by_cases hgone : h.seen = true ∧ (riverWindows s.tree h.pid).isEmpty = true
  · rw [if_pos hgone]
    exact .ends
  · rw [if_neg hgone, if_pos hunfocused]
    by_cases hmode : s.mode = h.name
    · rw [if_pos hmode]
      exact reconciles_release hfocus hmode
    · rw [if_neg hmode]
      exact .leaves hfocus fun heq => absurd heq hmode

/-- A reconciliation does one of these things. -/
theorem reconciles (processExists : Bool) (h : NestedInput) (s : Sway) :
    Reconciles h s (h.reconcile processExists s) := by
  by_cases hends : h.stopping = true ∨ ¬processExists = true
  · rw [reconcile, if_pos hends]
    exact .ends
  · simp only [not_or, Bool.not_eq_true, Bool.not_eq_false] at hends
    obtain ⟨hgo, hexists⟩ := hends
    cases hfocus : h.focusedIn s with
    | true =>
        rw [reconcile_focused h s hgo hexists hfocus]
        split
        · next hholds => exact .holds hfocus hholds
        · next hholds =>
          simp only [not_or, not_not, Bool.not_eq_true] at hholds
          exact reconciles_capture hfocus hholds.1 hholds.2.1 hgo hexists
    | false => exact reconciles_unfocused hgo hexists hfocus

end NestedInput

/-! ## What commands leave alone -/

/-- Commands may have been sent from `s` to `s'`. -/
structure Commanded (s s' : Sway) : Prop where
  tree : s'.tree = s.tree
  events : ∃ more, s'.events = s.events ++ more ∧ ∀ e ∈ more, e.kind = 0x80000002

namespace Commanded

variable {s s' s'' : Sway}

theorem refl (s : Sway) : Commanded s s := ⟨rfl, [], (List.append_nil _).symm, by simp⟩

theorem trans (h : Commanded s s') (h' : Commanded s' s'') : Commanded s s'' := by
  obtain ⟨more, hmore, hkind⟩ := h.events
  obtain ⟨more', hmore', hkind'⟩ := h'.events
  refine ⟨h'.tree.trans h.tree, more ++ more', ?_, fun e he => ?_⟩
  · rw [hmore', hmore, List.append_assoc]
  · exact (List.mem_append.mp he).elim (hkind e) (hkind' e)

theorem define (s : Sway) (name : String) : Commanded s { s with modes := name :: s.modes } :=
  ⟨rfl, [], (List.append_nil _).symm, by simp⟩

theorem select {name : String} (h : s.command (.select name) = some s') : Commanded s s' := by
  obtain ⟨-, htree, -, -, hevents⟩ := Sway.command_select h
  exact ⟨htree, _, hevents, by simp⟩

end Commanded

namespace NestedInput

variable {h : NestedInput} {s : Sway} {r : Reconciled}

/-- The process watched stays the same. -/
theorem Reconciles.pid (hr : Reconciles h s r) : r.helper.pid = h.pid := by cases hr <;> rfl

/-- The name of the mode stays the same. -/
theorem Reconciles.name (hr : Reconciles h s r) : r.helper.name = h.name := by cases hr <;> rfl

/-- Defining the own mode is a command at most. -/
theorem commanded_define {s₁ : Sway} (hs₁ : s₁ = s ∨ s.command (.define h.name) = some s₁) :
    Commanded s s₁ ∧ s₁.mode = s.mode := by
  rcases hs₁ with rfl | hs₁
  · exact ⟨Commanded.refl _, rfl⟩
  · obtain rfl := Option.some.inj hs₁
    exact ⟨Commanded.define s h.name, rfl⟩

/-- A reconciliation changes Sway by commands only. -/
theorem Reconciles.commanded (hr : Reconciles h s r) : Commanded s r.sway := by
  cases hr with
  | ends => exact Commanded.refl s
  | leaves => exact Commanded.refl s
  | restores s' _ _ hselect => exact Commanded.select hselect
  | keeps => exact Commanded.refl s
  | holds => exact Commanded.refl s
  | captures s₁ s₂ _ _ _ hs₁ hselect =>
      exact (commanded_define hs₁).1.trans (Commanded.select hselect)
  | fails s₁ _ _ _ hs₁ => exact (commanded_define hs₁).1

end NestedInput

/-- The end of the loop sends at most the command for the default mode. -/
structure Finished (w w' : World) : Prop where
  phase : w'.phase = .ended
  pid : w'.helper.pid = w.helper.pid
  name : w'.helper.name = w.helper.name
  commanded : Commanded w.sway w'.sway
  restored : w.helper.defined = true → w.sway.mode = w.helper.name →
    w'.sway.mode = "default" ∨ w'.sway = w.sway ∧ w'.helper = w.helper
  mode : w'.sway.mode = "default" ∨ w'.sway.mode = w.sway.mode

/-- The end restores and stops. -/
theorem finished (w : World) : Finished w w.finish := by
  unfold World.finish
  by_cases hmine : w.helper.defined = true ∧ w.sway.mode = w.helper.name
  · rw [NestedInput.restore_mine hmine.1 hmine.2]
    cases hselect : w.sway.command (.select "default") with
    | none =>
        exact ⟨rfl, rfl, rfl, Commanded.refl _, fun _ _ => Or.inr ⟨rfl, rfl⟩, Or.inr rfl⟩
    | some s =>
        have hdefault := (Sway.command_select hselect).2.2.1
        exact ⟨rfl, rfl, rfl, Commanded.select hselect, fun _ _ => Or.inl hdefault, Or.inl hdefault⟩
  · rw [NestedInput.restore_other hmine]
    exact ⟨rfl, rfl, rfl, Commanded.refl _, fun hdefined hmode => absurd ⟨hdefined, hmode⟩ hmine,
      Or.inr rfl⟩

/-! ## Moves -/

/-- An event changes no name. -/
theorem event_kept (h : NestedInput) (e : SwayEvent) :
    (h.event e).name = h.name ∧ (h.event e).pid = h.pid := by
  unfold NestedInput.event
  split <;> exact ⟨rfl, rfl⟩

/-- What a move can do. -/
inductive Acts (w : World) : Move → World → Prop
  | focus (tree : Node) (event : Option SwayEvent) (w' : World) :
      w' = { w with sway := { w.sway with
        tree := tree
        events := w.sway.events ++ event.toList } } →
      (w'.riverFocused = true → ∀ e ∈ event, NestedInput.departs w.helper.pid e = false) →
      Acts w (.focus tree event) w'
  | mode (name : String) (s : Sway) : w.sway.command (.select name) = some s →
      Acts w (.mode name) { w with sway := s }
  | riverExits : Acts w .riverExits { w with riverExists := false }
  | signal : Acts w .signal { w with helper := w.helper.stop }
  | goesOn (r : NestedInput.Reconciled) : w.phase = .reconciles →
      NestedInput.Reconciles w.helper w.sway r → r.result = some true →
      Acts w .reconcile { w with helper := r.helper, sway := r.sway, phase := .waits }
  | stops (r : NestedInput.Reconciled) (w' : World) : w.phase = .reconciles →
      NestedInput.Reconciles w.helper w.sway r →
      Finished { w with helper := r.helper, sway := r.sway } w' → Acts w .reconcile w'
  | timeout : w.phase = .waits → Acts w .timeout { w with phase := .reconciles }
  | receives (e : SwayEvent) : w.phase = .waits → w.sway.events[w.received]? = some e →
      Acts w .receive { w with
        received := w.received + 1, helper := w.helper.event e, phase := .reconciles }
  | shutsDown (w' : World) : w.phase = .waits → Finished { w with received := w.received + 1 } w' →
      Acts w .receive w'

/-- What a move may do. -/
theorem acts_of_act {w w' : World} {m : Move} (hact : act w m = some w') : Acts w m w' := by
  cases m with
  | focus tree event =>
      simp only [act, Option.ite_none_left_eq_some, Option.some.injEq] at hact
      obtain ⟨htruth, rfl⟩ := hact
      refine .focus tree event _ rfl fun hfocus e he => ?_
      obtain rfl : event = some e := he
      exact Bool.eq_false_iff.mpr fun hdeparts => htruth ⟨hdeparts, hfocus⟩
  | mode name =>
      obtain ⟨s, hselect, rfl⟩ := Option.map_eq_some_iff.mp hact
      exact .mode name s hselect
  | riverExits =>
      obtain rfl := Option.some.inj hact
      exact .riverExits
  | signal =>
      obtain rfl := Option.some.inj hact
      exact .signal
  | reconcile =>
      simp only [act, Option.ite_none_right_eq_some] at hact
      obtain ⟨hphase, hact⟩ := hact
      have hr := NestedInput.reconciles w.riverExists w.helper w.sway
      split at hact
      · next hresult =>
        obtain rfl := Option.some.inj hact
        exact .goesOn _ hphase hr hresult
      · obtain rfl := Option.some.inj hact
        exact .stops _ _ hphase hr (finished _)
  | timeout =>
      simp only [act, Option.ite_none_right_eq_some, Option.some.injEq] at hact
      obtain ⟨hphase, rfl⟩ := hact
      exact .timeout hphase
  | receive =>
      simp only [act, Option.ite_none_right_eq_some, Option.map_eq_some_iff] at hact
      obtain ⟨hphase, e, hnext, rfl⟩ := hact
      split
      · exact .shutsDown _ hphase (finished _)
      · exact .receives e hphase hnext

end XmonadWayland.Nested
