import Mathlib.Data.List.Infix
import XmonadWayland.Nested.Reconcile

/-!
# XmonadWayland.Nested.Escape

The escape from the helper's mode.  The helper notices it by the mode it no longer finds,
and then holds back until River has lost the focus.  But it also stops holding back when
it receives an event that River has lost the focus, and such an event may be older than
the escape.
-/

namespace XmonadWayland.Nested

/-! ## The escape -/

/-- The user leaves the helper's mode for the default mode while River is focused. -/
structure Escape (w w' : World) : Prop where
  focused : w.riverFocused = true
  inMode : w.sway.mode = w.helper.name
  escaped : act w (.mode "default") = some w'

/-- The next move of the helper enters its mode. -/
def Enters (w : World) : Prop :=
  ∃ m w', m.byHelper = true ∧ act w m = some w' ∧ w.sway.mode ≠ w.helper.name
    ∧ w'.sway.mode = w.helper.name

/-- The next event is one of the first `n`, it reports a departure, and the helper holds back. -/
def staleDeparture (n : Nat) (w : World) : Bool :=
  w.received < n && w.helper.blocked
    && w.sway.events[w.received]?.any (NestedInput.departs w.helper.pid)

/-! ## Holding back -/

namespace NestedInput

variable {h : NestedInput} {s : Sway}

/-- An owner that finds another mode holds back, and who holds back goes on to do so. -/
theorem noticed_holding (hheld : h.owned = true ∨ h.blocked = true) :
    (noticed h s).owned = true ∨ (noticed h s).blocked = true := by
  by_cases hmode : s.mode = h.name
  · simpa [noticed, hmode] using hheld
  · right
    rcases hheld with howned | hblocked
    · simp [noticed, howned, hmode]
    · simp [noticed, hblocked]

/-- Before the default mode the helper then does nothing. -/
theorem noticed_blocked (hname : h.name ≠ "default") (hmode : s.mode = "default")
    (hheld : h.owned = true ∨ h.blocked = true) : (noticed h s).blocked = true := by
  rcases hheld with howned | hblocked
  · simp [noticed, howned, hmode, hname.symm]
  · simp [noticed, hblocked]

end NestedInput

/-- Of the events from the `n`-th on none reports a departure. -/
def NoneDeparts (n : Nat) (pid : Int) (events : List SwayEvent) : Prop :=
  ∀ i e, n ≤ i → events[i]? = some e → NestedInput.departs pid e = false

/-- Later events are not among the first ones. -/
theorem NoneDeparts.append {n : Nat} {pid : Int} {events more : List SwayEvent}
    (h : NoneDeparts n pid events) (hmore : ∀ e ∈ more, NestedInput.departs pid e = false) :
    NoneDeparts n pid (events ++ more) := by
  intro i e hi he
  by_cases hlt : i < events.length
  · rw [List.getElem?_append_left hlt] at he
    exact h i e hi he
  · rw [List.getElem?_append_right (by omega)] at he
    exact hmore e (List.mem_of_getElem? he)

/-- Commands report no departure. -/
theorem NoneDeparts.commanded {n : Nat} {pid : Int} {s s' : Sway} (h : NoneDeparts n pid s.events)
    (hs : Commanded s s') : NoneDeparts n pid s'.events := by
  obtain ⟨more, hmore, hkind⟩ := hs.events
  rw [hmore]
  exact h.append fun e he => by simp [NestedInput.departs, hkind e he]

/-- After the escape River is still focused, the helper has noticed or will notice, and all
reports of a departure are older than the escape. -/
structure Held (n : Nat) (w : World) : Prop where
  name : w.helper.name ≠ "default"
  focused : w.riverFocused = true
  holding : w.phase = .ended ∨ w.helper.owned = true ∨ w.helper.blocked = true
  reports : NoneDeparts n w.helper.pid w.sway.events

/-- The focus is read off the tree. -/
theorem riverFocused_eq {w w' : World} (hpid : w'.helper.pid = w.helper.pid)
    (htree : w'.sway.tree = w.sway.tree) : w'.riverFocused = w.riverFocused := by
  rw [World.riverFocused, World.riverFocused, hpid, htree]

/-- Commands and flags do not matter as long as the helper still holds back. -/
theorem Held.of_commanded {n : Nat} {w w' : World} (h : Held n w)
    (hname : w'.helper.name = w.helper.name) (hpid : w'.helper.pid = w.helper.pid)
    (hsway : Commanded w.sway w'.sway)
    (hholding : w'.phase = .ended ∨ w'.helper.owned = true ∨ w'.helper.blocked = true) :
    Held n w' where
  name := hname ▸ h.name
  focused := (riverFocused_eq hpid hsway.tree).trans h.focused
  holding := hholding
  reports := hpid ▸ h.reports.commanded hsway

/-- A reconcile of a helper that holds back changes nothing in Sway. -/
theorem Held.reconcile {n : Nat} {w : World} (h : Held n w) (hphase : w.phase = .reconciles)
    {r : NestedInput.Reconciled} (hr : NestedInput.Reconciles w.helper w.sway r) :
    r.sway = w.sway
      ∧ (r.result = some true → r.helper.owned = true ∨ r.helper.blocked = true) := by
  have hheld : w.helper.owned = true ∨ w.helper.blocked = true :=
    h.holding.resolve_left (by simp [hphase])
  have hfocus : w.helper.focusedIn w.sway = true := h.focused
  cases hr with
  | ends => exact ⟨rfl, fun hresult => by simp at hresult⟩
  | leaves hnot => simp [hfocus] at hnot
  | restores _ hnot => simp [hfocus] at hnot
  | keeps hnot => simp [hfocus] at hnot
  | holds => exact ⟨rfl, fun _ => NestedInput.noticed_holding hheld⟩
  | captures s₁ s₂ _ hmode hfree =>
      simp [NestedInput.noticed_blocked h.name hmode hheld] at hfree
  | fails s₁ _ hmode hfree => simp [NestedInput.noticed_blocked h.name hmode hheld] at hfree

/-- A report that is not stale was sent while River had lost the focus. -/
theorem Held.event {n : Nat} {w : World} (h : Held n w) {e : SwayEvent}
    (hnext : w.sway.events[w.received]? = some e) (hstale : staleDeparture n w = false)
    (hphase : w.phase = .waits) :
    (w.helper.event e).owned = true ∨ (w.helper.event e).blocked = true := by
  have hheld : w.helper.owned = true ∨ w.helper.blocked = true :=
    h.holding.resolve_left (by simp [hphase])
  unfold NestedInput.event
  split
  · next hdeparts =>
    have hold : w.received < n := by
      by_contra hnew
      rw [h.reports _ e (by omega) hnext] at hdeparts
      contradiction
    have hfree : w.helper.blocked = false := by
      simpa [staleDeparture, hold, hnext, hdeparts] using hstale
    left
    simpa [hfree] using hheld
  · exact hheld

/-- One move: the helper goes on holding back, unless River loses the focus or a stale report
is received. -/
theorem Held.act {n : Nat} {w w' : World} (h : Held n w) {m : Move} (hact : act w m = some w')
    (hstale : m = .receive → staleDeparture n w = false) :
    Held n w' ∨ w'.riverFocused = false := by
  cases acts_of_act hact with
  | focus tree event _ heq htruth =>
      rw [or_iff_not_imp_right, Bool.not_eq_false]
      intro hfocus
      have hreports := h.reports.append fun e he => htruth hfocus e (Option.mem_toList.mp he)
      subst heq
      exact ⟨h.name, hfocus, h.holding, hreports⟩
  | mode name s hselect =>
      exact Or.inl (h.of_commanded rfl rfl (Commanded.select hselect) h.holding)
  | riverExits => exact Or.inl (h.of_commanded rfl rfl (Commanded.refl _) h.holding)
  | signal => exact Or.inl (h.of_commanded rfl rfl (Commanded.refl _) h.holding)
  | goesOn r hphase hr hresult =>
      have hholds := (h.reconcile hphase hr).2 hresult
      exact Or.inl (h.of_commanded hr.name hr.pid hr.commanded (Or.inr hholds))
  | stops r _ hphase hr hf =>
      exact Or.inl (h.of_commanded (hf.name.trans hr.name) (hf.pid.trans hr.pid)
        (hr.commanded.trans hf.commanded) (Or.inl hf.phase))
  | timeout hphase =>
      have hheld := h.holding.resolve_left (by simp [hphase])
      exact Or.inl (h.of_commanded rfl rfl (Commanded.refl _) (Or.inr hheld))
  | receives e hphase hnext =>
      obtain ⟨hname, hpid⟩ := event_kept w.helper e
      have hheld := h.event hnext (hstale rfl) hphase
      exact Or.inl (h.of_commanded hname hpid (Commanded.refl _) (Or.inr hheld))
  | shutsDown _ _ hf =>
      exact Or.inl (h.of_commanded hf.name hf.pid hf.commanded (Or.inl hf.phase))

/-- A helper that holds back does not enter its mode. -/
theorem Held.not_enters {n : Nat} {w : World} (h : Held n w) : ¬Enters w := by
  rintro ⟨m, w', hhelper, hact, hout, hin⟩
  -- The end of the loop can only select the default mode.
  have hrestored : ∀ v : World, Finished v w' → v.sway = w.sway → False := fun v hf hsway => by
    rcases hf.mode with hmode | hmode
    · exact h.name (hin.symm.trans hmode)
    · exact hout (hsway ▸ hmode.symm.trans hin)
  cases acts_of_act hact with
  | goesOn r hphase hr hresult => exact hout ((h.reconcile hphase hr).1 ▸ hin)
  | stops r _ hphase hr hf => exact hrestored _ hf (h.reconcile hphase hr).1
  | timeout => exact hout hin
  | receives => exact hout hin
  | shutsDown _ _ hf => exact hrestored _ hf rfl
  | _ => simp [Move.byHelper] at hhelper

/-! ## Owning the mode -/

/-- The helper owns its mode whenever it is selected. -/
structure Owning (w : World) : Prop where
  name : w.helper.name ≠ "default"
  owner : w.sway.mode = w.helper.name → w.helper.owned = true ∧ w.helper.defined = true

/-- The helper's mode is never the default one. -/
theorem modeName_ne_default (pid self : Int) (token : String) :
    modeName pid self token ≠ "default" := by
  intro h
  have hfirst : "river-nested-".toList.head? = some 'r' := by decide +kernel
  have hdefault : "default".toList.head? = some 'd' := by decide +kernel
  have hhead : (modeName pid self token).toList.head? = some 'r' := by
    unfold modeName
    iterate 5 rw [String.toList_append, List.head?_append]
    rw [hfirst]
    rfl
  rw [h, hdefault] at hhead
  exact absurd hhead (by decide)

/-- As long as its mode is not selected, there is nothing to own. -/
theorem Initial.owning {w : World} (h : Initial w) : Owning w := by
  obtain ⟨pid, self, token, hhelper⟩ := h.helper
  refine ⟨?_, fun hmode => absurd hmode h.other⟩
  rw [hhelper]
  exact modeName_ne_default pid self token

/-- The end of the loop drops the mode with its owner. -/
theorem Owning.finish {w w' : World} (h : Owning w) (hf : Finished w w') : Owning w' := by
  refine ⟨hf.name ▸ h.name, fun hmode => ?_⟩
  rw [hf.name] at hmode
  have hkept : w.sway.mode = w.helper.name := by
    rcases hf.mode with hdefault | hsame
    · exact absurd (hmode.symm.trans hdefault) h.name
    · exact hsame.symm.trans hmode
  obtain ⟨howned, hdefined⟩ := h.owner hkept
  rcases hf.restored hdefined hkept with hdefault | ⟨-, hhelper⟩
  · exact absurd (hmode.symm.trans hdefault) h.name
  · rw [hhelper]
    exact ⟨howned, hdefined⟩

/-- The helper owns the mode it selects. -/
theorem Owning.reconcile {w : World} (h : Owning w) {r : NestedInput.Reconciled}
    (hr : NestedInput.Reconciles w.helper w.sway r) :
    Owning { w with helper := r.helper, sway := r.sway } := by
  refine ⟨hr.name ▸ h.name, fun hmode => ?_⟩
  replace hmode : r.sway.mode = w.helper.name := hmode.trans hr.name
  cases hr with
  | ends => exact h.owner hmode
  | leaves _ hundefined =>
      have hdefined := (h.owner hmode).2
      simp [hundefined hmode] at hdefined
  | restores s' _ _ hselect =>
      exact absurd (hmode.symm.trans (Sway.command_select hselect).2.2.1) h.name
  | keeps => exact h.owner hmode
  | holds =>
      obtain ⟨howned, hdefined⟩ := h.owner hmode
      refine ⟨?_, hdefined⟩
      simpa [NestedInput.noticed, howned] using hmode
  | captures => exact ⟨rfl, rfl⟩
  | fails => exact ⟨rfl, rfl⟩

/-- While the user does not select the helper's mode by hand, the helper owns it. -/
theorem Owning.act {w w' : World} (h : Owning w) {m : Move} (hact : act w m = some w')
    (hhand : m ≠ .mode w.helper.name) : Owning w' := by
  cases acts_of_act hact with
  | focus tree event _ heq =>
      subst heq
      exact ⟨h.name, h.owner⟩
  | mode name s hselect =>
      refine ⟨h.name, fun hmode => absurd ?_ hhand⟩
      rw [← hmode, (Sway.command_select hselect).2.2.1]
  | riverExits => exact ⟨h.name, h.owner⟩
  | signal => exact ⟨h.name, h.owner⟩
  | goesOn r _ hr =>
      have hreconciled := h.reconcile hr
      exact ⟨hreconciled.name, hreconciled.owner⟩
  | stops r _ _ hr hf => exact (h.reconcile hr).finish hf
  | timeout => exact ⟨h.name, h.owner⟩
  | receives e =>
      unfold NestedInput.event
      split <;> exact ⟨h.name, h.owner⟩
  | shutsDown _ _ hf =>
      have howning : Owning { w with received := w.received + 1 } := ⟨h.name, h.owner⟩
      exact howning.finish hf

/-- The mode keeps its name. -/
theorem name_act {w w' : World} {m : Move} (hact : act w m = some w') :
    w'.helper.name = w.helper.name := by
  cases acts_of_act hact with
  | focus tree event _ heq => rw [heq]
  | goesOn r _ hr => exact hr.name
  | stops r _ _ hr hf => exact hf.name.trans hr.name
  | receives e => exact (event_kept w.helper e).1
  | shutsDown _ _ hf => exact hf.name
  | _ => rfl

/-- The name of the mode never changes. -/
theorem name_runMoves {w w' : World} {moves : List Move} (hrun : runMoves w moves = some w') :
    w'.helper.name = w.helper.name :=
  runMonitor_keeps (I := fun v => v.helper.name = w.helper.name)
    (fun _ _ _ _ hact hv => (name_act hact).trans hv) hrun rfl

/-- The helper owns its mode unless the user selects it by hand. -/
theorem owning_runMoves {w w' : World} (h : Initial w) {moves : List Move}
    (hrun : runMoves w moves = some w') (hhand : .mode w.helper.name ∉ moves) : Owning w' := by
  refine (runMonitor_keeps (I := fun v => Owning v ∧ v.helper.name = w.helper.name)
    (fun m hm v v' hact hv => ?_) hrun ⟨h.owning, rfl⟩).1
  obtain ⟨howning, hname⟩ := hv
  exact ⟨howning.act hact fun heq => hhand (hname ▸ heq ▸ hm), (name_act hact).trans hname⟩

/-! ## The escape holds -/

/-- The helper holds back after the escape. -/
theorem Escape.held {w w' : World} (h : Escape w w') (hname : w.helper.name ≠ "default")
    (hnotices : w.helper.owned = true ∨ w.helper.blocked = true) :
    Held w.sway.events.length w' := by
  obtain ⟨s, hselect, rfl⟩ := Option.map_eq_some_iff.mp h.escaped
  have hnone : NoneDeparts w.sway.events.length w.helper.pid w.sway.events := fun i e hi he => by
    rw [List.getElem?_eq_none hi] at he
    contradiction
  have hcommanded := Commanded.select hselect
  have hfocused : World.riverFocused { w with sway := s } = w.riverFocused :=
    riverFocused_eq rfl hcommanded.tree
  exact ⟨hname, hfocused.trans h.focused, Or.inr hnotices, hnone.commanded hcommanded⟩

/-- **The escape is sticky**: after it the helper does not enter its mode before River has
lost the focus, provided that until then it receives no report of a departure that is older
than the escape while it holds back, and that, if the user had ever selected the helper's
mode by hand, the helper owned the mode or held back at the escape. -/
theorem escape_sticky {w₀ w₁ w₂ w₃ : World} {before after : List Move} (hinit : Initial w₀)
    (hbefore : runMoves w₀ before = some w₁) (hescape : Escape w₁ w₂)
    (hafter : runMoves w₂ after = some w₃) (henters : Enters w₃)
    (hhand : .mode w₀.helper.name ∈ before → w₁.helper.owned = true ∨ w₁.helper.blocked = true)
    (hstale : ∀ earlier later w, after = earlier ++ .receive :: later →
      runMoves w₂ earlier = some w → staleDeparture w₁.sway.events.length w = false
        ∨ Passes act w₂ (fun v => v.riverFocused = false) earlier) :
    Passes act w₂ (fun w => w.riverFocused = false) after := by
  have hname : w₁.helper.name ≠ "default" := by
    rw [name_runMoves hbefore]
    exact hinit.owning.name
  have hnotices : w₁.helper.owned = true ∨ w₁.helper.blocked = true := by
    by_cases hmem : .mode w₀.helper.name ∈ before
    · exact hhand hmem
    · exact Or.inl ((owning_runMoves hinit hbefore hmem).owner hescape.inMode).1
  have hheld := hescape.held hname hnotices
  by_contra hfocused
  have hrun := runMonitor_unless (I := Held w₁.sway.events.length)
    (R := fun w => w.riverFocused = false) (fun earlier m later v v' heq hv hact hI =>
      hI.act hact fun hm => ?_) hafter hheld
  · exact (hrun.resolve_right hfocused).not_enters henters
  · subst hm
    refine (hstale earlier later v heq hv).resolve_right fun hpassed => hfocused ?_
    exact heq ▸ hpassed.append _

/-- A run passes only the states at the ends of its beginnings. -/
theorem not_passes {w : World} {moves : List Move}
    (h : ∀ earlier ∈ moves.inits, (runMoves w earlier).all World.riverFocused = true) :
    ¬Passes act w (fun v => v.riverFocused = false) moves := by
  rintro ⟨earlier, later, v, heq, hrun, hv⟩
  have hmem : earlier ∈ moves.inits := (List.mem_inits earlier moves).mpr ⟨later, heq.symm⟩
  have hfocused := h earlier hmem
  have hrun' : runMoves w earlier = some v := hrun
  rw [hrun', Option.all_some, hv] at hfocused
  contradiction

/-- A move or a run that is possible leads to a world. -/
theorem eq_some_getD {o : Option World} (h : o.isSome = true) (w : World) : o = some (o.getD w) := by
  cases o with
  | none => contradiction
  | some v => rfl

/-- River beside another window. -/
def desktop (river : Bool) : Node :=
  ⟨none, none, false,
    [⟨some "river", some 7, river, [], []⟩, ⟨some "foot", some 9, !river, [], []⟩], []⟩

/-- The report that a window has got the focus. -/
def focusReport (window : Node) : SwayEvent := ⟨0x80000003, some "focus", some window⟩

/-- The helper is launched while River is focused. -/
def launched : World where
  sway := ⟨desktop true, "default", ["default", "resize"], []⟩
  riverExists := true
  received := 0
  helper := .init 7 8 "1f2e3d4c"
  phase := .reconciles

/-- The helper starts there. -/
theorem initial_launched : Initial launched :=
  ⟨⟨7, 8, "1f2e3d4c", rfl⟩, rfl, rfl, rfl, by decide +kernel, by decide +kernel⟩

/-- The user captures and escapes, and the helper receives the reports of both modes; the user
leaves River and returns, and then the mode is entered again. -/
theorem escape_sticky_returning :
    let before := [Move.reconcile]
    let after := [Move.receive, .reconcile, .receive, .reconcile, .focus (desktop false) none,
      .timeout, .reconcile, .focus (desktop true) none, .timeout]
    ∃ w₁ w₂, runMoves launched before = some w₁ ∧ Escape w₁ w₂
      ∧ Passes act w₂ (fun w => w.riverFocused = false) after := by
  intro before after
  let w₁ := (runMoves launched before).getD launched
  let w₂ := (act w₁ (.mode "default")).getD launched
  let w₃ := (runMoves w₂ after).getD launched
  have hbefore : runMoves launched before = some w₁ := eq_some_getD (by decide +kernel) launched
  have hescape : act w₁ (.mode "default") = some w₂ := eq_some_getD (by decide +kernel) launched
  have hafter : runMoves w₂ after = some w₃ := eq_some_getD (by decide +kernel) launched
  have henters : Enters w₃ := ⟨.reconcile, _, rfl, eq_some_getD (by decide +kernel) launched,
    by decide +kernel, by decide +kernel⟩
  have hescaped : Escape w₁ w₂ := ⟨by decide +kernel, by decide +kernel, hescape⟩
  refine ⟨w₁, w₂, hbefore, hescaped, escape_sticky initial_launched hbefore hescaped hafter henters
    (fun hmem => ?_) fun earlier later w heq => ?_⟩
  · simp [before] at hmem
  · have hfresh : ∀ earlier ∈ after.inits, (runMoves w₂ earlier).all
        (fun w => !staleDeparture w₁.sway.events.length w) = true := by decide +kernel
    have hmem : earlier ∈ after.inits := (List.mem_inits earlier after).mpr ⟨_, heq.symm⟩
    intro hrun
    have hnot := hfresh earlier hmem
    rw [hrun, Option.all_some, Bool.not_eq_true'] at hnot
    exact Or.inl hnot

/-- The user leaves River and returns before the escape; the report that River has lost the
focus is received after the helper has noticed the escape. -/
theorem stale_departure_recaptures :
    let before := [Move.reconcile,
      .focus (desktop false) (some (focusReport ⟨some "foot", some 9, true, [], []⟩)),
      .focus (desktop true) (some (focusReport ⟨some "river", some 7, true, [], []⟩))]
    let after := [Move.receive, .reconcile, .receive]
    ∃ w₁ w₂ w₃, Initial launched ∧ runMoves launched before = some w₁ ∧ Escape w₁ w₂
      ∧ runMoves w₂ after = some w₃ ∧ Enters w₃
      ∧ ¬Passes act w₂ (fun w => w.riverFocused = false) after := by
  intro before after
  let w₁ := (runMoves launched before).getD launched
  let w₂ := (act w₁ (.mode "default")).getD launched
  let w₃ := (runMoves w₂ after).getD launched
  have hbefore : runMoves launched before = some w₁ := eq_some_getD (by decide +kernel) launched
  have hescape : act w₁ (.mode "default") = some w₂ := eq_some_getD (by decide +kernel) launched
  have hafter : runMoves w₂ after = some w₃ := eq_some_getD (by decide +kernel) launched
  have henters : Enters w₃ := ⟨.reconcile, _, rfl, eq_some_getD (by decide +kernel) launched,
    by decide +kernel, by decide +kernel⟩
  exact ⟨w₁, w₂, w₃, initial_launched, hbefore, ⟨by decide +kernel, by decide +kernel, hescape⟩,
    hafter, henters, not_passes (by decide +kernel)⟩

end XmonadWayland.Nested
