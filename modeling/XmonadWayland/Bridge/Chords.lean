import XmonadWayland.Bridge.Bindings

/-!
# XmonadWayland.Bridge.Chords

What the validation of a configuration promises of the key table.  It folds over the
bindings of the user alone, and the picker's are registered behind them: the chords of the
whole table differ unless the user binds a key of the picker in its mode (`one_meaning_iff`).
-/

namespace XmonadWayland.Bridge

/-! ## The check of the bindings -/

/-- What the compositor tells bindings apart by. -/
def chord (binding : KeyBinding) : BindingMode × Nat × Nat :=
  (binding.bindingMode, binding.bindingKeysym, binding.bindingModifiers)

/-- A symbol, and modifiers River knows. -/
structure WellFormed (binding : KeyBinding) : Prop where
  keysym : binding.bindingKeysym ≠ 0
  modifiers : binding.bindingModifiers &&& 0xffffff12 = 0

/-- The loop accepts well-formed bindings whose chords are new. -/
theorem validateKeyBindingsGo_ok_iff (bindings : List KeyBinding)
    (seen : List (BindingMode × Nat × Nat)) :
    validateKeyBindingsGo seen bindings = .ok () ↔ (∀ b ∈ bindings, WellFormed b)
      ∧ (bindings.map chord).Nodup ∧ ∀ b ∈ bindings, chord b ∉ seen := by
  induction bindings generalizing seen with
  | nil => simp [validateKeyBindingsGo]
  | cons b rest ih =>
      rw [validateKeyBindingsGo]
      split
      · next hzero =>
        have hbad : ¬WellFormed b := fun hb => hb.keysym hzero
        simp [hbad]
      · split
        · next hmask =>
          have hbad : ¬WellFormed b := fun hb => hmask hb.modifiers
          simp [hbad]
        · split
          · next hseen => simp [chord, hseen]
          · next hzero hmask hnew =>
            have hb : WellFormed b := ⟨hzero, not_not.mp hmask⟩
            rw [ih]
            simp only [List.map_cons, List.nodup_cons, List.mem_map, List.mem_cons, not_or,
              chord] at hnew ⊢
            grind

/-- Bindings are accepted exactly when well formed and of distinct chords. -/
theorem validateKeyBindings_ok_iff (bindings : List KeyBinding) :
    validateKeyBindings bindings = .ok ()
      ↔ (∀ b ∈ bindings, WellFormed b) ∧ (bindings.map chord).Nodup := by
  rw [validateKeyBindings, validateKeyBindingsGo_ok_iff]
  simp

/-! ## Accepted configurations -/

/-- A tag is known exactly when it is configured. -/
theorem knownWorkspace_ok_iff (tags : List WorkspaceId) (tag : WorkspaceId) :
    knownWorkspace tags tag = .ok () ↔ tag ∈ tags := by
  unfold knownWorkspace
  split <;> simp_all

/-- An action is valid exactly when the tags it names are configured. -/
theorem validAction_ok_iff (tags : List WorkspaceId) (action : Action) :
    validAction tags action = .ok ()
      ↔ ∀ tag, action = .view tag ∨ action = .shift tag → tag ∈ tags := by
  cases action <;> simp [validAction, knownWorkspace_ok_iff]

/-- A list of checks passes exactly when each one passes. -/
theorem forM_ok_iff {α : Type} (f : α → Except String Unit) (l : List α) :
    forM l f = .ok () ↔ ∀ a ∈ l, f a = .ok () := by
  induction l with
  | nil => simp [pure, Except.pure]
  | cons a l ih =>
      rw [List.forM_cons, List.forall_mem_cons, ← ih]
      cases f a <;> simp [bind, Except.bind]

/-- What an accepted configuration promises of the user's bindings. -/
theorem keyBindings_of_validateConfig {cfg : Config} (h : validateConfig cfg = .ok ()) :
    (∀ b ∈ cfg.keyBindings, WellFormed b) ∧ (cfg.keyBindings.map chord).Nodup
      ∧ ∀ b ∈ cfg.keyBindings, validAction cfg.workspaceIds b.bindingAction = .ok () := by
  have hchecks : (do
      validateKeyBindings cfg.keyBindings
      forM (cfg.keyBindings.map KeyBinding.bindingAction) (validAction cfg.workspaceIds))
        = Except.ok () := by
    unfold validateConfig at h
    simp only at h
    split_ifs at h
    exact h
  cases hbindings : validateKeyBindings cfg.keyBindings with
  | error message =>
      rw [hbindings] at hchecks
      contradiction
  | ok _ =>
      rw [hbindings] at hchecks
      obtain ⟨hwell, hnodup⟩ := (validateKeyBindings_ok_iff _).mp hbindings
      refine ⟨hwell, hnodup, fun b hb => ?_⟩
      exact (forM_ok_iff _ _).mp hchecks b.bindingAction (List.mem_map_of_mem hb)

/-! ## The picker's bindings -/

/-- The chords of the picker: its letters and Escape without modifiers. -/
theorem chords_pickerBindings : pickerBindings.map chord
    = letters.map (fun letter => (.pickerMode, keySym letter, 0)) ++ [(.pickerMode, keyEscape, 0)] := by
  decide +kernel

/-- The picker's chords are distinct. -/
theorem nodup_pickerBindings : (pickerBindings.map chord).Nodup := by
  decide +kernel

/-- The picker's bindings are well formed. -/
theorem wellFormed_pickerBindings : ∀ b ∈ pickerBindings, WellFormed b := by
  have hall : ∀ b ∈ pickerBindings, b.bindingKeysym ≠ 0 ∧ b.bindingModifiers &&& 0xffffff12 = 0 := by
    decide +kernel
  exact fun b hb => ⟨(hall b hb).1, (hall b hb).2⟩

/-- The picker's bindings pick and cancel only. -/
theorem validAction_pickerBindings (tags : List WorkspaceId) :
    ∀ b ∈ pickerBindings, validAction tags b.bindingAction = .ok () := by
  intro b hb
  rcases List.mem_append.mp hb with hb | hb
  · obtain ⟨⟨letter, index⟩, -, rfl⟩ := List.mem_map.mp hb
    rfl
  · rw [List.mem_singleton.mp hb]
    rfl

/-- A user's binding of a key the picker listens for, in the picker's mode. -/
def ShadowsPicker (binding : KeyBinding) : Prop :=
  binding.bindingMode = .pickerMode ∧ binding.bindingModifiers = 0
    ∧ (binding.bindingKeysym = keyEscape ∨ ∃ letter ∈ letters, binding.bindingKeysym = keySym letter)

/-- A binding shadows the picker exactly when it shares a chord with it. -/
theorem shadowsPicker_iff (binding : KeyBinding) :
    ShadowsPicker binding ↔ chord binding ∈ pickerBindings.map chord := by
  rw [chords_pickerBindings, ShadowsPicker, chord]
  simp only [List.mem_append, List.mem_map, List.mem_singleton, Prod.mk.injEq]
  grind

/-! ## The table -/

/-- Every chord that is registered means one thing, and means something. -/
structure OneMeaning (cfg : Config) : Prop where
  chords : ((keyTable cfg).map chord).Nodup
  keysyms : ∀ b ∈ keyTable cfg, b.bindingKeysym ≠ 0
  modifiers : ∀ b ∈ keyTable cfg, b.bindingModifiers &&& 0xffffff12 = 0
  workspaces : ∀ b ∈ keyTable cfg, ∀ tag,
    b.bindingAction = .view tag ∨ b.bindingAction = .shift tag → tag ∈ cfg.workspaceIds

/-- **Chords**: of an accepted configuration the table that is registered gives every chord one
meaning exactly when no binding of the user shadows one of the picker. -/
theorem one_meaning_iff {cfg : Config} (h : validateConfig cfg = .ok ()) :
    OneMeaning cfg ↔ ∀ b ∈ cfg.keyBindings, ¬ShadowsPicker b := by
  obtain ⟨hwell, hnodup, hactions⟩ := keyBindings_of_validateConfig h
  have hall : ∀ b ∈ keyTable cfg, WellFormed b :=
    fun b hb => (List.mem_append.mp hb).elim (hwell b) (wellFormed_pickerBindings b)
  have hvalid : ∀ b ∈ keyTable cfg, validAction cfg.workspaceIds b.bindingAction = .ok () :=
    fun b hb => (List.mem_append.mp hb).elim (hactions b) (validAction_pickerBindings _ b)
  have hchords : ((keyTable cfg).map chord).Nodup ↔ ∀ b ∈ cfg.keyBindings, ¬ShadowsPicker b := by
    rw [keyTable, List.map_append, List.nodup_append']
    simp only [hnodup, nodup_pickerBindings, true_and, List.disjoint_left, List.forall_mem_map, shadowsPicker_iff]
  refine ⟨fun hone => hchords.mp hone.chords, fun hfree => ⟨hchords.mpr hfree,
    fun b hb => (hall b hb).keysym, fun b hb => (hall b hb).modifiers,
    fun b hb => (validAction_ok_iff _ _).mp (hvalid b hb)⟩⟩

/-- The letter `a` of the picker, bound to leave it. -/
def shadowingConfig : Config :=
  { defaultConfig with keyBindings := [modeKey .pickerMode (keySym 'a') 0 .pickCancel] }

/-- The configuration is accepted, and two entries have one chord. -/
theorem one_meaning_shadowed :
    validateConfig shadowingConfig = .ok () ∧ ¬OneMeaning shadowingConfig := by
  have htwice : ¬((keyTable shadowingConfig).map chord).Nodup := by
    decide +kernel
  exact ⟨by decide +kernel, fun hone => htwice hone.chords⟩

/-- A key that is no letter of the picker, bound to leave it. -/
def returningConfig : Config :=
  { defaultConfig with keyBindings := [modeKey .pickerMode keyReturn 0 .pickCancel,
      modeKey .normalMode (keySym 'a') 0 .pick] }

/-- Neither binding shadows the picker: the one is not a letter, the other in another mode. -/
theorem one_meaning_default : OneMeaning returningConfig := by
  have hfree : ∀ b ∈ returningConfig.keyBindings, chord b ∉ pickerBindings.map chord := by
    decide +kernel
  exact (one_meaning_iff (by decide +kernel)).mpr fun b hb hshadow =>
    hfree b hb ((shadowsPicker_iff b).mp hshadow)

end XmonadWayland.Bridge
