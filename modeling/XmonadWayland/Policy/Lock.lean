import XmonadWayland.Policy.Visible

/-!
# XmonadWayland.Policy.Lock

A locked session.  While it lasts the binding mode is normal, no pointer operation
is live and no window has the focus; user input of any kind changes nothing and has
no effect.  The handler's own lock test is not enough for this: the pointer
bookkeeping around it is the identity because everything it could drop is valid
(`Settled`) and there is no operation to cancel.
-/

namespace XmonadWayland

open StackSet

/-! ## Nothing to drop -/

/-- Without an operation there is nothing to cancel. -/
theorem cancelPointer_of_none {p : Policy} (h : p.pointerOperation = none) :
    cancelPointer p = p := by
  rw [cancelPointer, ← h]

/-- Valid anchors are not preserved as float rectangles. -/
theorem foldr_preserveInvalidAnchor_of_valid {previous next : Policy} {keys : List WindowId}
    (h : ∀ wid ∈ keys, anchorValid wid next = true) :
    keys.foldr (preserveInvalidAnchor previous) next = next := by
  induction keys with
  | nil => rfl
  | cons wid keys ih =>
      rw [List.foldr_cons, ih fun w hw => h w (List.mem_cons_of_mem _ hw)]
      exact if_pos (h wid List.mem_cons_self)

/-- Valid anchors need no settling. -/
theorem settleAnchors_self {p : Policy} (h : Settled p) : settleAnchors p p = p :=
  foldr_preserveInvalidAnchor_of_valid fun wid hw => h.anchors wid (Std.ExtTreeMap.mem_keys.mp hw)

/-- Valid pointer state passes validation. -/
theorem validatePointerState_self {p : Policy} (h : Settled p) : validatePointerState p = p := by
  have hanchors : p.pointerAnchors.filter (fun wid _ => anchorValid wid p) = p.pointerAnchors :=
    map_filter_eq_self fun wid a ha => h.anchors wid (mem_map_iff.mpr ⟨a, ha⟩)
  have hop : p.pointerOperation.filter (fun op => operationValid op p) = p.pointerOperation := by
    cases hp : p.pointerOperation with
    | none => rfl
    | some op => rw [Option.filter_some, if_pos (h.operation op hp)]
  rw [validatePointerState, hanchors, hop]

/-! ## The locked state -/

/-- The handler leaves a locked session in the normal mode. -/
theorem activeMode_of_locked (cfg : Config) (ev : Event) {p : Policy}
    (hlock : p.sessionLocked = true) (hmode : p.activeMode = .normalMode) :
    (handleOrdinaryEvent cfg ev p).1.activeMode = .normalMode := by
  cases ev with
  | pointerStarted sid wid edges x y => simp [handleOrdinaryEvent, startPointer, hmode, hlock]
  | pointerMoved sid dx dy =>
      exact (frame_movePointer sid dx dy p).activeMode.trans hmode
  | pointerReleased sid => exact (frame_endPointer sid p).activeMode.trans hmode
  | pointerCancelled sid => exact (frame_endPointer sid p).activeMode.trans hmode
  | windowActualSize wid width height => simp only [handleOrdinaryEvent]; split <;> exact hmode
  | windowAdded wid => simp only [handleOrdinaryEvent]; split <;> exact hmode
  | windowParent wid parent =>
      simp only [handleOrdinaryEvent, setParent]
      split
      · exact hmode
      · split <;> exact hmode
  | windowFullscreen wid enabled => simp only [handleOrdinaryEvent]; split <;> exact hmode
  | windowAppId wid text => simp only [handleOrdinaryEvent, recordText]; split <;> exact hmode
  | windowTitle wid text => simp only [handleOrdinaryEvent, recordText]; split <;> exact hmode
  | focusRequested wid => simp only [handleOrdinaryEvent]; split <;> exact hmode
  | actionRequested action => simp [handleOrdinaryEvent, requestAction, hlock, hmode]
  | locked => rfl
  | outputUpsert oid rect => exact hmode
  | outputRemoved oid => exact hmode
  | outputWorkArea oid rect => exact hmode
  | windowRemoved wid => exact hmode
  | windowSizeHints wid a b c d => exact hmode
  | unlocked => exact hmode

/-- Only `locked` and `unlocked` change the lock. -/
theorem sessionLocked_startPointer (sid : SeatId) (wid : WindowId) (edges : Nat) (x y : Int)
    (p : Policy) : (startPointer sid wid edges x y p).sessionLocked = p.sessionLocked := by
  unfold startPointer
  split
  · rfl
  · split
    · next initial _ _ _ =>
      split
      · exact ((frame_materializeAnchor wid p).trans
          (frame_setFloatRect wid initial _)).sessionLocked
      · rfl
    · rfl

/-- Only `locked` and `unlocked` change the lock. -/
theorem sessionLocked_handleOrdinaryEvent (cfg : Config) {ev : Event} {p : Policy}
    (hs : p.windowSet.WellFormed) (hsession : ev ≠ .locked ∧ ev ≠ .unlocked) :
    (handleOrdinaryEvent cfg ev p).1.sessionLocked = p.sessionLocked := by
  by_cases hev : ev.isLifecycle
  · cases ev with
    | windowAdded wid => simp only [handleOrdinaryEvent]; split <;> rfl
    | outputUpsert oid rect => rfl
    | outputRemoved oid => rfl
    | windowRemoved wid => rfl
    | _ => contradiction
  · by_cases hpassive : ev.isPassive
    · exact (kept_handleOrdinaryEvent cfg hs (by simpa using hev) hpassive).sessionLocked
    · cases ev with
      | pointerStarted sid wid edges x y =>
          simp only [handleOrdinaryEvent]
          split
          · rfl
          · exact sessionLocked_startPointer sid wid edges x y p
      | locked => exact absurd rfl hsession.1
      | unlocked => exact absurd rfl hsession.2
      | _ => contradiction

/-- A step keeps a locked session in the normal mode. -/
theorem normalMode_step (cfg : Config) (ev : Event) {tags : List WorkspaceId} {p : Policy}
    (hc : Consistent tags p) (h : p.sessionLocked = true → p.activeMode = .normalMode)
    (hlock : (step cfg p ev).sessionLocked = true) :
    (step cfg p ev).activeMode = .normalMode := by
  have hprep := frame_preparePointerEvent ev p
  have hfin := frame_finish (preparePointerEvent ev p)
    (handleOrdinaryEvent cfg ev (preparePointerEvent ev p)).1
  have hs : (preparePointerEvent ev p).windowSet.WellFormed := hprep.windowSet ▸ hc.wellFormed
  have hnext : (handleOrdinaryEvent cfg ev (preparePointerEvent ev p)).1.sessionLocked = true :=
    hfin.sessionLocked.symm.trans hlock
  refine hfin.activeMode.trans ?_
  by_cases hlocks : ev = .locked
  · subst hlocks
    rfl
  · by_cases hunlocks : ev = .unlocked
    · subst hunlocks
      contradiction
    · rw [sessionLocked_handleOrdinaryEvent cfg hs ⟨hlocks, hunlocks⟩] at hnext
      exact activeMode_of_locked cfg ev hnext
        (hprep.activeMode.trans (h (hprep.sessionLocked ▸ hnext)))

/-- A locked session is in the normal mode. -/
theorem normalMode_of_reachable {cfg : Config} {p : Policy} (h : Reachable cfg p)
    (hlock : p.sessionLocked = true) : p.activeMode = .normalMode := by
  induction h with
  | initial hcfg => rfl
  | event ev h ih => exact normalMode_step _ ev (managed_of_reachable h).toConsistent ih hlock
  | reload _ _ _ ih => exact ih hlock

/-! ## Input under lock -/

/-- Events that come from the user or on a client's request for the pointer or focus. -/
def Event.isInput : Event → Bool
  | .actionRequested _ => true
  | .focusRequested _ => true
  | .pointerStarted _ _ _ _ _ => true
  | .pointerMoved _ _ _ => true
  | .pointerReleased _ => true
  | .pointerCancelled _ => true
  | _ => false

/-- Nothing has the focus while the session is locked. -/
theorem focusedWindow_of_locked {p : Policy} (hlock : p.sessionLocked = true) :
    focusedWindow p = none := if_pos (Or.inl hlock)

/-- No operation is live while the session is locked. -/
theorem pointerOperation_of_locked {p : Policy} (h : Settled p) (hlock : p.sessionLocked = true) :
    p.pointerOperation = none := by
  cases hop : p.pointerOperation with
  | none => rfl
  | some op =>
      have hvalid := (operationValid_iff.mp (h.operation op hop)).1
      rw [hlock] at hvalid
      contradiction

/-- Input needs no preparation under lock. -/
theorem preparePointerEvent_of_locked {p : Policy} (hop : p.pointerOperation = none)
    (hlock : p.sessionLocked = true) {ev : Event} (hev : ev.isInput) :
    preparePointerEvent ev p = p := by
  have hcancel := cancelPointer_of_none hop
  cases ev with
  | actionRequested action =>
      have hfocus : focusedGeometry p = p := by
        rw [focusedGeometry, focusedWindow_of_locked hlock, hcancel]
      simp only [preparePointerEvent, preparePointerAction]
      split <;> first | rfl | exact hfocus | exact hcancel
  | focusRequested wid =>
      simp only [preparePointerEvent, hcancel]
      split <;> rfl
  | pointerStarted sid wid edges x y => rfl
  | pointerMoved sid dx dy => rfl
  | pointerReleased sid => rfl
  | pointerCancelled sid => rfl
  | _ => contradiction

/-- The handler ignores input under lock. -/
theorem handleOrdinaryEvent_of_locked (cfg : Config) {p : Policy} (hop : p.pointerOperation = none)
    (hmode : p.activeMode = .normalMode) (hlock : p.sessionLocked = true) {ev : Event}
    (hev : ev.isInput) : handleOrdinaryEvent cfg ev p = (p, []) := by
  cases ev with
  | actionRequested action => simp only [handleOrdinaryEvent, requestAction, hlock, if_true]
  | focusRequested wid => simp [handleOrdinaryEvent, hlock]
  | pointerStarted sid wid edges x y => simp [handleOrdinaryEvent, startPointer, hmode, hlock]
  | pointerMoved sid dx dy => simp [handleOrdinaryEvent, movePointer, hop]
  | pointerReleased sid => simp [handleOrdinaryEvent, endPointer, hop]
  | pointerCancelled sid => simp [handleOrdinaryEvent, endPointer, hop]
  | _ => contradiction

/-- Input under lock is ignored. -/
theorem handleEvent_of_locked (cfg : Config) {p : Policy} (hset : Settled p)
    (hmode : p.activeMode = .normalMode) (hlock : p.sessionLocked = true) {ev : Event}
    (hev : ev.isInput) : handleEvent cfg ev p = (p, []) := by
  have hop := pointerOperation_of_locked hset hlock
  simp only [handleEvent, preparePointerEvent_of_locked hop hlock hev,
    handleOrdinaryEvent_of_locked cfg hop hmode hlock hev, settleAnchors_self hset,
    validatePointerState_self hset]

/-- So does any run of input. -/
theorem runEvents_of_locked (cfg : Config) {p : Policy} (hset : Settled p)
    (hmode : p.activeMode = .normalMode) (hlock : p.sessionLocked = true) {evs : List Event}
    (hev : ∀ ev ∈ evs, ev.isInput) : runEvents cfg evs p = p := by
  induction evs with
  | nil => rfl
  | cons ev evs ih =>
      have hstep : step cfg p ev = p :=
        congrArg Prod.fst (handleEvent_of_locked cfg hset hmode hlock (hev ev List.mem_cons_self))
      rw [runEvents, List.foldl_cons, hstep]
      exact ih fun e he => hev e (List.mem_cons_of_mem _ he)

/-- The effects of an event handled while locked. -/
theorem effects_of_locked (cfg : Config) (ev : Event) {p : Policy}
    (hmode : p.activeMode = .normalMode) (hlock : p.sessionLocked = true) :
    (handleOrdinaryEvent cfg ev p).2 = if ev = .locked then [.hidePicker] else [] := by
  cases ev with
  | pointerStarted sid wid edges x y => simp [handleOrdinaryEvent, hmode]
  | windowActualSize wid width height => simp only [handleOrdinaryEvent]; split <;> rfl
  | windowAdded wid => simp only [handleOrdinaryEvent]; split <;> rfl
  | windowFullscreen wid enabled => simp only [handleOrdinaryEvent]; split <;> rfl
  | focusRequested wid => simp only [handleOrdinaryEvent]; split <;> rfl
  | actionRequested action => simp [handleOrdinaryEvent, requestAction, hlock]
  | locked => rfl
  | _ => rfl

/-! ## Locking and unlocking -/

/-- An event whose handler sets the lock, and nothing that is shown. -/
def SetsLock (cfg : Config) (ev : Event) (lock : Bool) : Prop :=
  ∀ p : Policy, (handleOrdinaryEvent cfg ev p).1.sessionLocked = lock
    ∧ (handleOrdinaryEvent cfg ev p).1.windowSet = p.windowSet
    ∧ (handleOrdinaryEvent cfg ev p).1.outputs = p.outputs

/-- Such an event sets the lock, keeping windows and outputs. -/
theorem SetsLock.step {cfg : Config} {ev : Event} {lock : Bool} (h : SetsLock cfg ev lock)
    (p : Policy) : (step cfg p ev).sessionLocked = lock ∧ (step cfg p ev).windowSet = p.windowSet
      ∧ (step cfg p ev).outputs = p.outputs := by
  have hprep := frame_preparePointerEvent ev p
  have hfin := frame_finish (preparePointerEvent ev p)
    (handleOrdinaryEvent cfg ev (preparePointerEvent ev p)).1
  obtain ⟨hlock, hws, hout⟩ := h (preparePointerEvent ev p)
  exact ⟨hfin.sessionLocked.trans hlock, hfin.windowSet.trans (hws.trans hprep.windowSet),
    hfin.outputs.trans (hout.trans hprep.outputs)⟩

theorem setsLock_locked (cfg : Config) : SetsLock cfg .locked true := fun _ => ⟨rfl, rfl, rfl⟩

theorem setsLock_unlocked (cfg : Config) : SetsLock cfg .unlocked false := fun _ => ⟨rfl, rfl, rfl⟩

/-- **Lock safety**: a locked session has no focus, no operation and the normal mode,
ignores all input, and unlocking shows it as it was before. -/
theorem lock_safety {cfg : Config} {p : Policy} (h : Reachable cfg p) :
    (p.sessionLocked = true →
      p.activeMode = .normalMode ∧ p.pointerOperation = none ∧ focusedWindow p = none
        ∧ (∀ q ∈ renderPolicy p, q.placementFocused = false)
        ∧ (∀ ev : Event, ev.isInput → handleEvent cfg ev p = (p, []))
        ∧ ∀ ev : Event, (handleEvent cfg ev p).2 = if ev = .locked then [.hidePicker] else [])
      ∧ ∀ evs : List Event, (∀ ev ∈ evs, ev.isInput) →
        let after := step cfg (runEvents cfg evs (step cfg p .locked)) .unlocked
        after.windowSet = p.windowSet
          ∧ (p.sessionLocked = false → focusedWindow after = focusedWindow p) := by
  have hset := settled_of_reachable h
  constructor
  · intro hlock
    have hmode := normalMode_of_reachable h hlock
    have hfocus := focusedWindow_of_locked hlock
    refine ⟨hmode, pointerOperation_of_locked hset hlock, hfocus, ?_, ?_, ?_⟩
    · intro q hq
      obtain ⟨wid, -, rfl⟩ := List.mem_map.mp hq
      unfold placement
      split
      · simp [hfocus]
      · rfl
    · exact fun ev hev => handleEvent_of_locked cfg hset hmode hlock hev
    · intro ev
      have hprep := frame_preparePointerEvent ev p
      exact effects_of_locked cfg ev (hprep.activeMode.trans hmode)
        (hprep.sessionLocked.trans hlock)
  · intro evs hevs after
    have hl := h.event .locked
    obtain ⟨hlock, hws, hout⟩ := (setsLock_locked cfg).step p
    have hrun : runEvents cfg evs (step cfg p .locked) = step cfg p .locked :=
      runEvents_of_locked cfg (settled_of_reachable hl) (normalMode_of_reachable hl hlock) hlock hevs
    obtain ⟨hunlock, hws', hout'⟩ := (setsLock_unlocked cfg).step (step cfg p .locked)
    have hafter : after = step cfg (step cfg p .locked) .unlocked :=
      congrArg (fun q => step cfg q .unlocked) hrun
    rw [hafter]
    refine ⟨hws'.trans hws, fun hfree => ?_⟩
    rw [focusedWindow, focusedWindow, hunlock, hfree, hws', hws, hout', hout]

/-- An action under lock. -/
theorem lock_safety_default :
    handleEvent defaultConfig (.actionRequested .focusNext)
        (runEvents defaultConfig [.windowAdded 1, .locked] (initialPolicy defaultConfig))
      = (runEvents defaultConfig [.windowAdded 1, .locked] (initialPolicy defaultConfig), []) :=
  ((lock_safety (reachable_runEvents validateConfig_defaultConfig [.windowAdded 1, .locked])).1
    (by decide +kernel)).2.2.2.2.1 _ rfl

end XmonadWayland
