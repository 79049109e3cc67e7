import XmonadWayland.Nested.Escape

/-!
# XmonadWayland.Nested.Modes

The helper leaves the user's modes alone.  Beside the moves of `act`, here Sway may report
anything, signals arrive and River exits in the middle of a reconcile, and errors end the
loop at any time.  In each step the helper selects at most one mode (`Switches`).
-/

namespace XmonadWayland.Nested

namespace NestedInput

/-! ## Reconciles that are interrupted -/

/-- What else happens during a reconcile. -/
structure Looks where
  /-- The process of River exists at the first look. -/
  exists₁ : Bool
  /-- A signal arrives before the flag is read for the second time. -/
  signal₁ : Bool
  /-- A signal arrives before the second look. -/
  signal₂ : Bool
  /-- The process of River exists at the second look. -/
  exists₂ : Bool
  /-- The second look raises an error. -/
  fails : Bool
deriving DecidableEq, Repr

/-- The second half of a reconcile; a second look that fails leaves the mode defined. -/
def captureDuring (l : Looks) (h : NestedInput) (s : Sway) : Reconciled :=
  let h := { h with stopping := h.stopping || l.signal₂ }
  if l.fails then { capture false h s with result := none } else capture l.exists₂ h s

/-- `reconcile` as it is interrupted. -/
def reconcileDuring (l : Looks) (h : NestedInput) (s : Sway) : Reconciled :=
  if h.stopping ∨ ¬l.exists₁ then ⟨some false, h, s⟩
  else
    let windows := riverWindows s.tree h.pid
    if h.seen ∧ windows.isEmpty then ⟨some false, h, s⟩
    else
      let h := { h with seen := h.seen ∨ ¬windows.isEmpty, stopping := h.stopping || l.signal₁ }
      let focused := windows.any Node.focused
      let current := s.mode
      if ¬focused then
        let h := { h with blocked := false }
        if current = h.name then h.release s
        else ⟨some true, { h with owned := false }, s⟩
      else
        let h := if h.owned ∧ current ≠ h.name then { h with owned := false, blocked := true } else h
        let h := if current ∉ ["default", h.name] then { h with blocked := true } else h
        if current ≠ "default" ∨ h.blocked ∨ h.stopping then ⟨some true, h, s⟩
        else captureDuring l h s

/-- Nothing but Sway and River's process matters. -/
def Looks.calm (processExists : Bool) : Looks := ⟨processExists, false, false, processExists, false⟩

/-- When nothing changes meanwhile, this is `capture`. -/
theorem captureDuring_calm (processExists : Bool) (h : NestedInput) (s : Sway) :
    captureDuring (.calm processExists) h s = capture processExists h s := by
  simp [captureDuring, Looks.calm]

/-- A reconcile that nothing interrupts. -/
theorem reconcileDuring_calm (processExists : Bool) (h : NestedInput) (s : Sway) :
    h.reconcileDuring (.calm processExists) s = h.reconcile processExists s := by
  unfold reconcileDuring reconcile
  simp only [captureDuring_calm]
  simp [Looks.calm]

end NestedInput

/-! ## Turns -/

/-- A run takes the moves, and more: Sway reports what it likes, a reconcile is interrupted,
an error ends the loop. -/
inductive Turn where
  | move (m : Move)
  | reports (tree : Node) (events : List SwayEvent)
  | reconciles (l : NestedInput.Looks)
  | fails

def Turn.byHelper : Turn → Bool
  | .move m => m.byHelper
  | .reports .. => false
  | .reconciles _ | .fails => true

def turn (w : World) : Turn → Option World
  | .move m => act w m
  | .reports tree events =>
    some { w with sway := { w.sway with tree := tree, events := w.sway.events ++ events } }
  | .reconciles l =>
    if w.phase = .reconciles then
      let r := w.helper.reconcileDuring l w.sway
      let next := { w with helper := r.helper, sway := r.sway }
      if r.result = some true then some { next with phase := .waits } else some next.finish
    else none
  | .fails => if w.phase = .ended then none else some w.finish

abbrev runTurns (w : World) (turns : List Turn) : Option World := runMonitor turn w turns

/-- A reconciliation in peace is one of the moves. -/
theorem turn_reconcile (w : World) :
    turn w (.move .reconcile) = turn w (.reconciles (.calm w.riverExists)) := by
  simp only [turn, act, NestedInput.reconcileDuring_calm]

/-! ## What a reconcile does to the modes -/

/-- The helper may have defined its mode, while the default mode is selected. -/
def Defines (name : String) (s s' : Sway) : Prop :=
  s' = s ∨ s.mode = "default" ∧ s.command (.define name) = some s'

/-- The helper selects at most one mode: its own in place of the default mode, while River is
focused and after the mode with its escape is defined, or the default mode in place of its own. -/
inductive Switches (pid : Int) (name : String) (s s' : Sway) : Prop
  | stays : Defines name s s' → Switches pid name s s'
  | enters (s₁ : Sway) : (riverWindows s.tree pid).any Node.focused = true → s.mode = "default" →
      Defines name s s₁ → name ∈ s₁.modes → s₁.command (.select name) = some s' →
      Switches pid name s s'
  | restores : s.mode = name → s.command (.select "default") = some s' → Switches pid name s s'

section

variable {pid : Int} {name : String} {s s' : Sway}

theorem Defines.refl (name : String) (s : Sway) : Defines name s s := Or.inl rfl

/-- Defining a mode selects none. -/
theorem Defines.mode (h : Defines name s s') : s'.mode = s.mode := by
  rcases h with rfl | ⟨-, hdefine⟩
  · rfl
  · rw [← Option.some.inj hdefine]

/-- At most the one mode is new. -/
theorem Defines.modes (h : Defines name s s') : s'.modes = s.modes ∨ s'.modes = name :: s.modes := by
  rcases h with rfl | ⟨-, hdefine⟩
  · exact Or.inl rfl
  · rw [← Option.some.inj hdefine]
    exact Or.inr rfl

/-- At most the own mode is new. -/
theorem Switches.modes (h : Switches pid name s s') :
    s'.modes = s.modes ∨ s'.modes = name :: s.modes := by
  cases h with
  | stays hdefines => exact hdefines.modes
  | enters s₁ _ _ hdefines _ hselect =>
      rw [(Sway.command_select hselect).2.2.2.1]
      exact hdefines.modes
  | restores _ hselect => exact Or.inl (Sway.command_select hselect).2.2.2.1

/-- No third mode is left or entered. -/
theorem Switches.third (h : Switches pid name s s') (hchanged : s'.mode ≠ s.mode) :
    s.mode ∈ ["default", name] ∧ s'.mode ∈ ["default", name] := by
  cases h with
  | stays hdefines => exact absurd hdefines.mode hchanged
  | enters s₁ _ hdefault _ _ hselect => simp [hdefault, (Sway.command_select hselect).2.2.1]
  | restores hmine hselect => simp [hmine, (Sway.command_select hselect).2.2.1]

/-- Modes stay defined. -/
theorem Switches.mem_modes (h : Switches pid name s s') {other : String} (hmem : other ∈ s.modes) :
    other ∈ s'.modes := by
  rcases h.modes with hmodes | hmodes <;> rw [hmodes]
  · exact hmem
  · exact List.mem_cons_of_mem _ hmem

/-- The helper's mode is selected only where it is defined. -/
theorem Switches.selected (h : Switches pid name s s') (hs : s.mode = name → name ∈ s.modes)
    (hmode : s'.mode = name) : name ∈ s'.modes := by
  have hkept : s.mode = name → name ∈ s'.modes := fun hmode => h.mem_modes (hs hmode)
  cases h with
  | stays hdefines => exact hkept (hdefines.mode.symm.trans hmode)
  | enters s₁ _ _ _ hmem hselect =>
      rw [(Sway.command_select hselect).2.2.2.1]
      exact hmem
  | restores hmine => exact hkept hmine

end

namespace NestedInput

/-- What a reconcile owes to the user's modes, interrupted or not. -/
structure Respects (h : NestedInput) (s : Sway) (r : Reconciled) : Prop where
  pid : r.helper.pid = h.pid
  name : r.helper.name = h.name
  switches : Switches h.pid h.name s r.sway
  defined : r.helper.defined = true ∨ r.helper.defined = h.defined ∧ r.sway.modes = s.modes
  stopped : r.result ≠ some true → Defines h.name s r.sway
  released : r.result = some true → h.focusedIn s = false → (s.mode = h.name → h.defined = true) →
    h.name ≠ "default" → r.sway.mode ≠ h.name

/-- The same helper, but for flags that do not concern the modes. -/
structure Alike (h h' : NestedInput) : Prop where
  pid : h'.pid = h.pid
  name : h'.name = h.name
  defined : h'.defined = h.defined

section

variable {h h' : NestedInput} {s s₁ : Sway}

/-- A reconcile that sends no command, with River focused or the helper's mode not selected. -/
theorem respects_quiet (hlike : Alike h h') (result : Option Bool)
    (hother : result = some true → h.focusedIn s = false → (s.mode = h.name → h.defined = true) →
      s.mode ≠ h.name) : Respects h s ⟨result, h', s⟩ where
  pid := hlike.pid
  name := hlike.name
  switches := .stays (Defines.refl _ s)
  defined := Or.inr ⟨hlike.defined, rfl⟩
  stopped _ := Defines.refl _ s
  released htrue hfocus hdefined _ := hother htrue hfocus hdefined

/-- With River focused the helper may define its mode, and go no further. -/
theorem respects_defines (hfocus : h.focusedIn s = true) (hlike : Alike { h with defined := true } h')
    (hdefines : Defines h.name s s₁) (result : Option Bool) : Respects h s ⟨result, h', s₁⟩ where
  pid := hlike.pid
  name := hlike.name
  switches := .stays hdefines
  defined := Or.inl hlike.defined
  stopped _ := hdefines
  released _ hnot := by simp [hfocus] at hnot

/-- Entering is respectful in the default mode with the focus. -/
theorem respects_enter (hfocus : h.focusedIn s = true) (hmode : s.mode = "default")
    (hlike : Alike { h with defined := true } h') (hdefines : Defines h.name s s₁) :
    Respects h s (enter h' s₁) := by
  have hname : h'.name = h.name := hlike.name
  have howner : Alike { h with defined := true } { h' with owned := true } :=
    ⟨hlike.pid, hlike.name, hlike.defined⟩
  unfold enter
  dsimp only
  cases hselect : s₁.command (.select h'.name) with
  | none => exact respects_defines hfocus howner hdefines none
  | some s₂ =>
      rw [hname] at hselect
      have hmem := (Sway.command_select hselect).1
      exact {
        pid := howner.pid
        name := howner.name
        switches := .enters s₁ hfocus hmode hdefines hmem hselect
        defined := Or.inl howner.defined
        stopped := fun hnot => absurd rfl hnot
        released := fun _ hnot => by simp [hfocus] at hnot }

/-- So is looking again before. -/
theorem respects_recheck (processExists : Bool) (hfocus : h.focusedIn s = true)
    (hmode : s.mode = "default") (hlike : Alike { h with defined := true } h')
    (hdefines : Defines h.name s s₁) : Respects h s (recheck processExists h' s₁) := by
  unfold recheck
  dsimp only
  split
  · exact respects_defines hfocus hlike hdefines (some true)
  · exact respects_enter hfocus hmode hlike hdefines

/-- The second look follows the definition of the mode. -/
theorem capture_eq (hmode : s.mode = "default") (hlike : Alike h h') :
    ∃ h₁ s₁, Alike { h with defined := true } h₁ ∧ Defines h.name s s₁
      ∧ ∀ processExists, capture processExists h' s = recheck processExists h₁ s₁ := by
  by_cases hdefined : h'.defined = true
  · refine ⟨h', s, ⟨hlike.pid, hlike.name, hdefined⟩, Defines.refl _ s, fun processExists => ?_⟩
    rw [capture, if_neg (not_not.mpr hdefined)]
  · refine ⟨{ h' with defined := true }, { s with modes := h.name :: s.modes },
      ⟨hlike.pid, hlike.name, rfl⟩, Or.inr ⟨hmode, rfl⟩, fun processExists => ?_⟩
    rw [capture, if_pos hdefined, Sway.command_define, hlike.name]

/-- So is a capture, whatever changes meanwhile. -/
theorem respects_captureDuring (l : Looks) (hfocus : h.focusedIn s = true)
    (hmode : s.mode = "default") (hlike : Alike h h') : Respects h s (captureDuring l h' s) := by
  have hsignal : Alike h { h' with stopping := h'.stopping || l.signal₂ } :=
    ⟨hlike.pid, hlike.name, hlike.defined⟩
  obtain ⟨h₁, s₁, hlike₁, hdefines, hcapture⟩ := capture_eq hmode hsignal
  unfold captureDuring
  dsimp only
  rw [hcapture, hcapture]
  split
  · have hstops : recheck false h₁ s₁ = ⟨some true, h₁, s₁⟩ := by simp [recheck]
    rw [hstops]
    exact respects_defines hfocus hlike₁ hdefines none
  · exact respects_recheck l.exists₂ hfocus hmode hlike₁ hdefines

/-- The mode is given back, if the helper had defined it. -/
theorem respects_release (hmode : s.mode = h.name) (hlike : Alike h h') :
    Respects h s (release h' s) := by
  have hdropped : Alike h { h' with owned := false } := ⟨hlike.pid, hlike.name, hlike.defined⟩
  by_cases hdefined : h'.defined = true
  · rw [release, restore_mine hdefined (hmode.trans hlike.name.symm)]
    cases hselect : s.command (.select "default") with
    | none => exact respects_quiet hlike none (by simp)
    | some s' =>
        obtain ⟨-, -, hdefault, hmodes, -⟩ := Sway.command_select hselect
        exact {
          pid := hdropped.pid
          name := hdropped.name
          switches := .restores hmode hselect
          defined := Or.inr ⟨hdropped.defined, hmodes⟩
          stopped := fun hnot => absurd rfl hnot
          released := fun _ _ _ hname => fun hmine => hname (hmine.symm.trans hdefault) }
  · rw [release, restore_other fun hmine => hdefined hmine.1]
    refine respects_quiet hdropped (some true) fun _ _ hmine => ?_
    exact absurd (hlike.defined.trans (hmine hmode)) hdefined

/-- With River focused an interrupted reconcile too goes by what the helper has noticed. -/
theorem reconcileDuring_focused (l : Looks) (hends : ¬(h.stopping = true ∨ ¬l.exists₁ = true))
    (hthere : ¬(h.seen = true ∧ (riverWindows s.tree h.pid).isEmpty = true))
    (hfocus : h.focusedIn s = true) :
    let noted := noticed { h with stopping := h.stopping || l.signal₁ } s
    h.reconcileDuring l s
      = if s.mode ≠ "default" ∨ noted.blocked ∨ noted.stopping then ⟨some true, noted, s⟩
        else captureDuring l noted s := by
  have hfocused : ¬¬(riverWindows s.tree h.pid).any Node.focused = true := not_not.mpr hfocus
  let rest (h : NestedInput) : Reconciled :=
    if s.mode ≠ "default" ∨ h.blocked ∨ h.stopping then ⟨some true, h, s⟩
    else captureDuring l h s
  unfold reconcileDuring
  rw [if_neg hends]
  dsimp only
  rw [if_neg hthere, if_neg hfocused]
  exact congrArg rest (noticed_eq { h with stopping := h.stopping || l.signal₁ } s)

/-- The branch with the focus is respectful. -/
theorem respects_focused (l : Looks) (hends : ¬(h.stopping = true ∨ ¬l.exists₁ = true))
    (hthere : ¬(h.seen = true ∧ (riverWindows s.tree h.pid).isEmpty = true))
    (hfocus : h.focusedIn s = true) : Respects h s (h.reconcileDuring l s) := by
  rw [reconcileDuring_focused l hends hthere hfocus]
  split
  · refine respects_quiet ?_ (some true) fun _ hnot => by simp [hfocus] at hnot
    exact ⟨rfl, rfl, rfl⟩
  · next hgo =>
    have hmode : s.mode = "default" := not_not.mp fun hmode => hgo (Or.inl hmode)
    exact respects_captureDuring l hfocus hmode ⟨rfl, rfl, rfl⟩

/-- The branch without the focus is respectful. -/
theorem respects_unfocused (l : Looks) (hends : ¬(h.stopping = true ∨ ¬l.exists₁ = true))
    (hthere : ¬(h.seen = true ∧ (riverWindows s.tree h.pid).isEmpty = true))
    (hfocus : ¬h.focusedIn s = true) : Respects h s (h.reconcileDuring l s) := by
  have hunfocused : ¬(riverWindows s.tree h.pid).any Node.focused = true := hfocus
  unfold reconcileDuring
  rw [if_neg hends]
  dsimp only
  rw [if_neg hthere, if_pos hunfocused]
  split
  · next hmode => exact respects_release hmode ⟨rfl, rfl, rfl⟩
  · next hmode =>
    refine respects_quiet ?_ (some true) fun _ _ _ => hmode
    exact ⟨rfl, rfl, rfl⟩

end

/-- What holds of every reconcile. -/
theorem respects_reconcileDuring (l : Looks) (h : NestedInput) (s : Sway) :
    Respects h s (h.reconcileDuring l s) := by
  have hends : Respects h s ⟨some false, h, s⟩ :=
    respects_quiet ⟨rfl, rfl, rfl⟩ (some false) (by simp)
  by_cases hstops : h.stopping = true ∨ ¬l.exists₁ = true
  · rw [reconcileDuring, if_pos hstops]
    exact hends
  by_cases hgone : h.seen = true ∧ (riverWindows s.tree h.pid).isEmpty = true
  · unfold reconcileDuring
    rw [if_neg hstops]
    dsimp only
    rw [if_pos hgone]
    exact hends
  by_cases hfocus : h.focusedIn s = true
  · exact respects_focused l hstops hgone hfocus
  · exact respects_unfocused l hstops hgone hfocus

end NestedInput

/-! ## What a turn does to the modes -/

/-- The helper's mode is selected only where it is defined, and defined only by the helper. -/
structure Tracked (w : World) : Prop where
  name : w.helper.name ≠ "default"
  default : "default" ∈ w.sway.modes
  selected : w.sway.mode = w.helper.name → w.helper.name ∈ w.sway.modes
  defined : w.helper.name ∈ w.sway.modes → w.helper.defined = true

/-- The end of the loop gives the mode back. -/
structure Restores (w w' : World) : Prop where
  phase : w'.phase = .ended
  alike : NestedInput.Alike w.helper w'.helper
  modes : w'.sway.modes = w.sway.modes
  switch : w'.sway = w.sway ∨ w.sway.mode = w.helper.name
    ∧ w.sway.command (.select "default") = some w'.sway
  mode : w'.sway.mode ≠ w.helper.name

/-- The end restores the default mode. -/
theorem Tracked.restores {w : World} (h : Tracked w) : Restores w w.finish := by
  unfold World.finish
  by_cases hmine : w.helper.defined = true ∧ w.sway.mode = w.helper.name
  · rw [NestedInput.restore_mine hmine.1 hmine.2]
    cases hselect : w.sway.command (.select "default") with
    | none => simp [Sway.command, h.default] at hselect
    | some s =>
        obtain ⟨-, -, hdefault, hmodes, -⟩ := Sway.command_select hselect
        have hgiven : s.mode ≠ w.helper.name := fun hmode => h.name (hmode.symm.trans hdefault)
        exact ⟨rfl, ⟨rfl, rfl, rfl⟩, hmodes, Or.inr ⟨hmine.2, hselect⟩, hgiven⟩
  · rw [NestedInput.restore_other hmine]
    have hother : w.sway.mode ≠ w.helper.name := fun hmode =>
      hmine ⟨h.defined (h.selected hmode), hmode⟩
    exact ⟨rfl, ⟨rfl, rfl, rfl⟩, rfl, Or.inl rfl, hother⟩

/-- What a turn can do. -/
inductive Turns (w : World) (t : Turn) (w' : World) : Prop
  | outside : t.byHelper = false → w'.phase = w.phase → NestedInput.Alike w.helper w'.helper →
      w'.sway.modes = w.sway.modes →
      (w'.sway.mode = w.sway.mode ∨ w'.sway.mode ∈ w.sway.modes) → Turns w t w'
  | waited : w.phase = .waits → w'.phase = .reconciles → NestedInput.Alike w.helper w'.helper →
      w'.sway = w.sway → Turns w t w'
  | goesOn (r : NestedInput.Reconciled) : NestedInput.Respects w.helper w.sway r →
      r.result = some true → w' = { w with helper := r.helper, sway := r.sway, phase := .waits } →
      Turns w t w'
  | stops (r : NestedInput.Reconciled) : NestedInput.Respects w.helper w.sway r →
      r.result ≠ some true → w' = World.finish { w with helper := r.helper, sway := r.sway } →
      Turns w t w'
  | ends (received : Nat) : w' = World.finish { w with received := received } → Turns w t w'

/-- An event changes no name and no definition. -/
theorem alike_event (h : NestedInput) (e : SwayEvent) : NestedInput.Alike h (h.event e) := by
  unfold NestedInput.event
  split <;> exact ⟨rfl, rfl, rfl⟩

/-- What a reconciliation during other moves may do. -/
theorem turns_reconciles {w w' : World} {l : NestedInput.Looks} {t : Turn}
    (hturn : turn w (.reconciles l) = some w') : Turns w t w' := by
  simp only [turn, Option.ite_none_right_eq_some] at hturn
  have hrespects := NestedInput.respects_reconcileDuring l w.helper w.sway
  obtain ⟨-, hturn⟩ := hturn
  split at hturn
  · next hresult => exact .goesOn _ hrespects hresult (Option.some.inj hturn).symm
  · next hresult => exact .stops _ hrespects hresult (Option.some.inj hturn).symm

/-- What a move may do. -/
theorem turns_move {w w' : World} {m : Move} (hturn : turn w (.move m) = some w') :
    Turns w (.move m) w' := by
  cases m with
  | reconcile => exact turns_reconciles (turn_reconcile w ▸ hturn)
  | focus tree event =>
      simp only [turn, act, Option.ite_none_left_eq_some, Option.some.injEq] at hturn
      obtain ⟨-, rfl⟩ := hturn
      exact .outside rfl rfl ⟨rfl, rfl, rfl⟩ rfl (Or.inl rfl)
  | mode name =>
      obtain ⟨s, hselect, rfl⟩ := Option.map_eq_some_iff.mp hturn
      obtain ⟨hmem, -, hmode, hmodes, -⟩ := Sway.command_select hselect
      exact .outside rfl rfl ⟨rfl, rfl, rfl⟩ hmodes (Or.inr (hmode ▸ hmem))
  | riverExits =>
      obtain rfl := Option.some.inj hturn
      exact .outside rfl rfl ⟨rfl, rfl, rfl⟩ rfl (Or.inl rfl)
  | signal =>
      obtain rfl := Option.some.inj hturn
      exact .outside rfl rfl ⟨rfl, rfl, rfl⟩ rfl (Or.inl rfl)
  | timeout =>
      simp only [turn, act, Option.ite_none_right_eq_some, Option.some.injEq] at hturn
      obtain ⟨hphase, rfl⟩ := hturn
      exact .waited hphase rfl ⟨rfl, rfl, rfl⟩ rfl
  | receive =>
      simp only [turn, act, Option.ite_none_right_eq_some, Option.map_eq_some_iff] at hturn
      obtain ⟨hphase, e, -, rfl⟩ := hturn
      split
      · exact .ends _ rfl
      · exact .waited hphase rfl (alike_event w.helper e) rfl

/-- What a turn may do. -/
theorem turns_of_turn {w w' : World} {t : Turn} (hturn : turn w t = some w') : Turns w t w' := by
  cases t with
  | move m => exact turns_move hturn
  | reports tree events =>
      obtain rfl := Option.some.inj hturn
      exact .outside rfl rfl ⟨rfl, rfl, rfl⟩ rfl (Or.inl rfl)
  | reconciles l => exact turns_reconciles hturn
  | fails =>
      simp only [turn, Option.ite_none_left_eq_some, Option.some.injEq] at hturn
      exact .ends w.received hturn.2.symm

/-! ## Runs -/

section

variable {w w' : World} {t : Turn}

/-- Another turn selects a mode that is defined, if it selects one. -/
theorem Tracked.other (h : Tracked w) (hlike : NestedInput.Alike w.helper w'.helper)
    (hmodes : w'.sway.modes = w.sway.modes)
    (hmode : w'.sway.mode = w.sway.mode ∨ w'.sway.mode ∈ w.sway.modes) : Tracked w' := by
  refine ⟨hlike.name ▸ h.name, hmodes ▸ h.default, fun hmine => ?_, fun hmem => ?_⟩
  · rw [hlike.name] at hmine ⊢
    rw [hmodes]
    rcases hmode with hsame | hdefined
    · exact h.selected (hsame.symm.trans hmine)
    · exact hmine ▸ hdefined
  · rw [hlike.name, hmodes] at hmem
    exact hlike.defined.trans (h.defined hmem)

/-- A respectful reconciliation keeps track. -/
theorem Tracked.reconciled (h : Tracked w) {r : NestedInput.Reconciled}
    (hr : NestedInput.Respects w.helper w.sway r) :
    Tracked { w with helper := r.helper, sway := r.sway } where
  name := hr.name ▸ h.name
  default := hr.switches.mem_modes h.default
  selected hmode := by
    rw [hr.name] at hmode ⊢
    exact hr.switches.selected h.selected hmode
  defined hmem := by
    rcases hr.defined with hdefined | ⟨hdefined, hmodes⟩
    · exact hdefined
    · rw [hr.name, hmodes] at hmem
      exact hdefined.trans (h.defined hmem)

/-- Receiving an event keeps track. -/
theorem Tracked.receives (h : Tracked w) (received : Nat) :
    Tracked { w with received := received } := ⟨h.name, h.default, h.selected, h.defined⟩

/-- Restoring keeps track. -/
theorem Tracked.restored (h : Tracked w) (hr : Restores w w') : Tracked w' where
  name := hr.alike.name ▸ h.name
  default := hr.modes ▸ h.default
  selected hmode := absurd (hmode.trans hr.alike.name) hr.mode
  defined hmem := by
    rw [hr.alike.name, hr.modes] at hmem
    exact hr.alike.defined.trans (h.defined hmem)

/-- One turn. -/
theorem Tracked.turn (h : Tracked w) (ht : Turns w t w') : Tracked w' := by
  cases ht with
  | outside _ _ hlike hmodes hmode => exact h.other hlike hmodes hmode
  | waited _ _ hlike hsway => exact h.other hlike (by rw [hsway]) (Or.inl (by rw [hsway]))
  | goesOn r hr _ heq =>
      have hreconciled := h.reconciled hr
      rw [heq]
      exact ⟨hreconciled.name, hreconciled.default, hreconciled.selected, hreconciled.defined⟩
  | stops r hr _ heq => exact heq ▸ (h.reconciled hr).restored (h.reconciled hr).restores
  | ends received heq => exact heq ▸ (h.receives received).restored (h.receives received).restores

/-- The helper keeps its process and its mode. -/
theorem Turns.kept (ht : Turns w t w') (h : Tracked w) :
    w'.helper.pid = w.helper.pid ∧ w'.helper.name = w.helper.name := by
  cases ht with
  | outside _ _ hlike => exact ⟨hlike.pid, hlike.name⟩
  | waited _ _ hlike => exact ⟨hlike.pid, hlike.name⟩
  | goesOn r hr _ heq => exact heq ▸ ⟨hr.pid, hr.name⟩
  | stops r hr _ heq =>
      have hlike := (h.reconciled hr).restores.alike
      exact heq ▸ ⟨hlike.pid.trans hr.pid, hlike.name.trans hr.name⟩
  | ends received heq =>
      have hlike := (h.receives received).restores.alike
      exact heq ▸ ⟨hlike.pid, hlike.name⟩

/-- A helper that has just defined its mode has nothing to give back. -/
theorem Defines.restores {pid : Int} {name : String} {s s₁ s' : Sway} (h : Defines name s s₁)
    (hname : name ≠ "default")
    (hs' : s' = s₁ ∨ s₁.mode = name ∧ s₁.command (.select "default") = some s') :
    Switches pid name s s' := by
  rcases hs' with rfl | ⟨hmine, hselect⟩
  · exact .stays h
  · rcases h with rfl | ⟨hdefault, hdefine⟩
    · exact .restores hmine hselect
    · rw [← Option.some.inj hdefine] at hmine
      exact absurd (hmine.symm.trans hdefault) hname

/-- The helper selects nothing but its own mode for the default mode, and back. -/
theorem Tracked.switches (h : Tracked w) (ht : Turns w t w') (hby : t.byHelper = true) :
    Switches w.helper.pid w.helper.name w.sway w'.sway := by
  cases ht with
  | outside hnot => simp [hnot] at hby
  | waited _ _ _ hsway => exact hsway ▸ .stays (Defines.refl _ _)
  | goesOn r hr _ heq => exact heq ▸ hr.switches
  | stops r hr hresult heq =>
      have hswitch := (h.reconciled hr).restores.switch
      dsimp only at hswitch
      rw [hr.name, ← heq] at hswitch
      exact (hr.stopped hresult).restores h.name hswitch
  | ends received heq =>
      have hswitch := (h.receives received).restores.switch
      rw [← heq] at hswitch
      exact (Defines.refl _ _).restores h.name hswitch

/-- A reconcile that goes on without the focus has given the mode back. -/
theorem Tracked.released (h : Tracked w) (ht : Turns w t w') (hbefore : w.phase = .reconciles)
    (hafter : w'.phase = .waits) (hfocus : w.riverFocused = false) :
    w'.sway.mode ≠ w.helper.name := by
  cases ht with
  | outside _ hphase => simp [hphase, hbefore] at hafter
  | waited hphase => simp [hphase] at hbefore
  | goesOn r hr hresult heq =>
      have hmine : w.sway.mode = w.helper.name → w.helper.defined = true := fun hmode =>
        h.defined (h.selected hmode)
      exact heq ▸ hr.released hresult hfocus hmine h.name
  | stops r hr _ heq => simp [heq, (h.reconciled hr).restores.phase] at hafter
  | ends received heq => simp [heq, (h.receives received).restores.phase] at hafter

/-- So has the end of the loop. -/
theorem Tracked.ended (h : Tracked w) (ht : Turns w t w') (hbefore : w.phase ≠ .ended)
    (hafter : w'.phase = .ended) : w'.sway.mode ≠ w.helper.name := by
  cases ht with
  | outside _ hphase => exact absurd (hphase.symm.trans hafter) hbefore
  | waited _ hphase => simp [hphase] at hafter
  | goesOn r _ _ heq => simp [heq] at hafter
  | stops r hr _ heq => exact heq ▸ hr.name ▸ (h.reconciled hr).restores.mode
  | ends received heq => exact heq ▸ (h.receives received).restores.mode

end

/-- The helper starts with nothing to track. -/
theorem Initial.tracked {w : World} (h : Initial w) (hsway : "default" ∈ w.sway.modes) :
    Tracked w where
  name := h.owning.name
  default := hsway
  selected hmode := absurd hmode h.other
  defined hmem := absurd hmem h.fresh

/-- The helper keeps track in every run. -/
theorem tracked_runTurns {w₀ w : World} {turns : List Turn} (hrun : runTurns w₀ turns = some w)
    (h : Tracked w₀) :
    Tracked w ∧ w.helper.pid = w₀.helper.pid ∧ w.helper.name = w₀.helper.name := by
  refine runMonitor_keeps (I := fun v => Tracked v ∧ v.helper.pid = w₀.helper.pid
    ∧ v.helper.name = w₀.helper.name) (fun t _ v v' hturn hv => ?_) hrun ⟨h, rfl, rfl⟩
  obtain ⟨htracked, hpid, hname⟩ := hv
  have hturns := turns_of_turn hturn
  obtain ⟨hpid', hname'⟩ := hturns.kept htracked
  exact ⟨htracked.turn hturns, hpid'.trans hpid, hname'.trans hname⟩

/-- **The user's modes are respected**: from any start with Sway's default mode, in each turn
the helper selects at most its own mode in place of the default mode, while River is focused
and after the escape is defined, or the default mode in place of its own, and no third mode is
left or entered; when a reconcile goes on without the focus, and whenever the loop ends, its
mode is not selected. -/
theorem modes_respected {w₀ w w' : World} {turns : List Turn} {t : Turn} (hinit : Initial w₀)
    (hsway : "default" ∈ w₀.sway.modes) (hrun : runTurns w₀ turns = some w)
    (hturn : turn w t = some w') :
    (t.byHelper = true → Switches w₀.helper.pid w₀.helper.name w.sway w'.sway
        ∧ (w'.sway.mode ≠ w.sway.mode → w.sway.mode ∈ ["default", w₀.helper.name]
          ∧ w'.sway.mode ∈ ["default", w₀.helper.name]))
      ∧ (w.phase = .reconciles → w'.phase = .waits → w.riverFocused = false →
        w'.sway.mode ≠ w₀.helper.name)
      ∧ (w.phase ≠ .ended → w'.phase = .ended → w'.sway.mode ≠ w₀.helper.name) := by
  obtain ⟨htracked, hpid, hname⟩ := tracked_runTurns hrun (hinit.tracked hsway)
  have hturns := turns_of_turn hturn
  rw [← hpid, ← hname]
  refine ⟨fun hby => ?_, htracked.released hturns, htracked.ended hturns⟩
  have hswitches := htracked.switches hturns hby
  exact ⟨hswitches, hswitches.third⟩

/-- A signal while the mode is held: the loop ends with the default mode. -/
theorem modes_respected_signal :
    let turns := [Turn.move .reconcile, .move .signal, .move .timeout]
    ∃ w w', runTurns launched turns = some w ∧ w.sway.mode = launched.helper.name
      ∧ turn w (.move .reconcile) = some w' ∧ w'.phase = .ended
      ∧ Switches launched.helper.pid launched.helper.name w.sway w'.sway
      ∧ w'.sway.mode ≠ launched.helper.name := by
  intro turns
  let w := (runTurns launched turns).getD launched
  let w' := (turn w (.move .reconcile)).getD launched
  have hrun : runTurns launched turns = some w := eq_some_getD (by decide +kernel) launched
  have hturn : turn w (.move .reconcile) = some w' := eq_some_getD (by decide +kernel) launched
  have hended : w'.phase = .ended := by decide +kernel
  obtain ⟨hswitches, -, hended'⟩ :=
    modes_respected initial_launched (by decide +kernel) hrun hturn
  exact ⟨w, w', hrun, by decide +kernel, hturn, hended, (hswitches rfl).1,
    hended' (by decide +kernel) hended⟩

end XmonadWayland.Nested
