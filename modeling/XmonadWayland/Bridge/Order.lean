import XmonadWayland.Bridge.Sync

/-!
# XmonadWayland.Bridge.Order

The order of the delivered events.  About a window there is nothing, or its birth, then
input and metadata, then at most its death; likewise about an output.
-/

namespace XmonadWayland.Bridge

/-! ## Events about an object -/

def aboutWindow (w : Nat) : Delivered → Bool
  | .event kind ident _ _ _ _ =>
    ident = w ∧ kind ∈ ([3, 4, 5, 11, 12, 13, 21, 25] : List Int)
  | .windowString kind ident _ => ident = w ∧ kind ∈ ([26, 27] : List Int)

def aboutOutput (o : Nat) : Delivered → Bool
  | .event kind ident _ _ _ _ => ident = o ∧ kind ∈ ([1, 2, 14] : List Int)
  | .windowString _ _ _ => false

/-- An event matters to a window exactly when it is about it. -/
theorem matters_windowRole (w : Nat) (d : Delivered) :
    (windowRole w d).matters = aboutWindow w d := by
  cases d with
  | event kind ident a b c e =>
      by_cases hid : ident = w
      · simp only [windowRole, aboutWindow, windowUses, hid]
        split <;> simp_all [Role.matters]
        grind
      · simp [windowRole, aboutWindow, hid, Role.matters]
  | windowString kind ident text =>
      simp only [windowRole, aboutWindow]
      split <;> simp_all [Role.matters]

/-- An event matters to an output exactly when it is about it. -/
theorem matters_outputRole (o : Nat) (d : Delivered) :
    (outputRole o d).matters = aboutOutput o d := by
  cases d with
  | event kind ident a b c e =>
      by_cases hid : ident = o
      · simp only [outputRole, aboutOutput, hid]
        split <;> simp_all [Role.matters]
        grind
      · simp [outputRole, aboutOutput, hid, Role.matters]
  | windowString kind ident text => rfl

/-- Nothing, or the kind `first`, any of `later`, and at most one `final` at the end. -/
def InOrder (first : Int) (later : List Int) (final : Int) (kinds : List Int) : Prop :=
  kinds = [] ∨ ∃ middle last, kinds = first :: (middle ++ last)
    ∧ (∀ kind ∈ middle, kind ∈ later) ∧ (last = [] ∨ last = [final])

/-- The events of a life are in order. -/
theorem inOrder_of_lived {α : Type} {role : Delivered → Role α} {events : List Delivered}
    {life : Lifespan α} {first final : Int} {later : List Int}
    (h : Lived role events life)
    (hfirst : ∀ d value, role d = .opens value ∨ role d = .sets value → d.kind = first)
    (hlater : ∀ d, (role d = .uses ∨ ∃ value, role d = .sets value) → d.kind ∈ later)
    (hfinal : ∀ d, role d = .closes → d.kind = final) :
    InOrder first later final (events.map Delivered.kind) := by
  have hbirth : ∀ {d middle last}, Lives role d middle last → d.kind = first := by
    intro d middle last hlives
    rcases hlives.first with ⟨value, hrole⟩ | ⟨value, hrole⟩
    · exact hfirst d value (Or.inl hrole)
    · exact hfirst d value (Or.inr hrole)
  have hmiddle : ∀ {d middle last}, Lives role d middle last →
      ∀ kind ∈ middle.map Delivered.kind, kind ∈ later := fun hlives =>
    List.forall_mem_map.mpr fun d hd => hlater d (hlives.middle d hd)
  cases life with
  | unborn => exact Or.inl (by rw [show events = [] from h]; rfl)
  | alive value =>
      obtain ⟨d, middle, rfl, hlives⟩ := h
      exact Or.inr ⟨middle.map Delivered.kind, [], by simp [hbirth hlives], hmiddle hlives, Or.inl rfl⟩
  | dead =>
      obtain ⟨d, middle, last, rfl, hlives⟩ := h
      have hlast : last.kind = final := hfinal last (hlives.last last rfl)
      exact Or.inr ⟨middle.map Delivered.kind, [final], by simp [hbirth hlives, hlast],
        hmiddle hlives, Or.inr rfl⟩

section Kinds

variable {d : Delivered}

/-- A window opens with event 3. -/
theorem kind_of_opens_window {w : Nat} {value : Unit} (h : windowRole w d = .opens value) :
    d.kind = 3 := by
  cases d <;> grind [windowRole, Delivered.kind]

/-- The events about an open window. -/
theorem kind_of_uses_window {w : Nat} (h : windowRole w d = .uses) :
    d.kind ∈ ([5, 11, 12, 13, 21, 25, 26, 27] : List Int) := by
  cases d <;> grind [windowRole, windowUses, Delivered.kind]

/-- A window closes with event 4. -/
theorem kind_of_closes_window {w : Nat} (h : windowRole w d = .closes) : d.kind = 4 := by
  cases d <;> grind [windowRole, Delivered.kind]

theorem windowRole_ne_sets {w : Nat} {value : Unit} : windowRole w d ≠ .sets value := by
  cases d <;> grind [windowRole]

theorem outputRole_ne_opens {o : Nat} {value : Rect} : outputRole o d ≠ .opens value := by
  cases d <;> grind [outputRole]

/-- An output is set by event 1. -/
theorem kind_of_sets_output {o : Nat} {value : Rect} (h : outputRole o d = .sets value) :
    d.kind = 1 := by
  cases d <;> grind [outputRole, Delivered.kind]

/-- It is used by event 14. -/
theorem kind_of_uses_output {o : Nat} (h : outputRole o d = .uses) : d.kind = 14 := by
  cases d <;> grind [outputRole, Delivered.kind]

/-- It closes with event 2. -/
theorem kind_of_closes_output {o : Nat} (h : outputRole o d = .closes) : d.kind = 2 := by
  cases d <;> grind [outputRole, Delivered.kind]

end Kinds

section Streams

variable {doomed : Nat → Prop} {log : List Delivered} {s : State}

/-- The events about a window come in order. -/
theorem inOrder_windows (h : Stream doomed log s) (w : Nat) :
    InOrder 3 [5, 11, 12, 13, 21, 25, 26, 27] 4
      ((log.filter (aboutWindow w)).map Delivered.kind) := by
  obtain ⟨life, hrun, -⟩ := h.windows w
  have hlived := lived_of_live hrun
  simp only [matters_windowRole] at hlived
  refine inOrder_of_lived hlived (fun d value hrole => ?_) (fun d hrole => ?_)
    fun d => kind_of_closes_window
  · exact kind_of_opens_window (hrole.resolve_right windowRole_ne_sets)
  · exact kind_of_uses_window (hrole.resolve_right fun ⟨_, hsets⟩ => windowRole_ne_sets hsets)

/-- The events about an output come in order. -/
theorem inOrder_outputs (h : Stream doomed log s) (o : Nat) :
    InOrder 1 [1, 14] 2 ((log.filter (aboutOutput o)).map Delivered.kind) := by
  obtain ⟨life, hrun, -⟩ := h.outputs o
  have hlived := lived_of_live hrun
  simp only [matters_outputRole] at hlived
  refine inOrder_of_lived hlived (fun d value hrole => ?_) (fun d hrole => ?_)
    fun d => kind_of_closes_output
  · exact kind_of_sets_output (hrole.resolve_left outputRole_ne_opens)
  · rcases hrole with hrole | ⟨value, hrole⟩
    · simp [kind_of_uses_output hrole]
    · simp [kind_of_sets_output hrole]

/-- Nothing was delivered about a doomed window. -/
theorem no_events_of_doomed (h : Stream doomed log s) {w : Nat} (hd : doomed w) :
    log.filter (aboutWindow w) = [] := by
  obtain ⟨life, hrun, hat⟩ := h.windows w
  have hlived := lived_of_live hrun
  obtain ⟨rfl, -⟩ := hat.doomed hd
  simp only [matters_windowRole] at hlived
  exact hlived

/-- A window closed before it was announced is doomed. -/
theorem Stream.doom (h : Stream doomed log s) (hl : Ledger s) {r : Window} (hr : r ∈ s.windows)
    (hclosed : r.closed = true) (hannounced : r.announced = false) :
    Stream (fun w => w = r.id) log s where
  windows w := by
    obtain ⟨life, hrun, hat⟩ := h.windows w
    refine ⟨life, hrun, hat.record, hat.absent, hat.fresh, ?_⟩
    rintro rfl
    refine ⟨?_, hl.windows.bounded _ (List.mem_map_of_mem hr), fun r' hr' hid => ?_⟩
    · rw [hat.record r hr rfl, hannounced]
      rfl
    · rw [eq_of_numbered hl.windows hr' hr hid]
      exact ⟨hclosed, hannounced⟩
  outputs := h.outputs
  dirty := h.dirty

end Streams

/-! ## Both sides after a manage sequence -/

def liveOutput (id : Nat) (s : State) : Option Output :=
  s.outputs.find? fun output => output.id = id ∧ !output.removed

section Sides

variable {doomed : Nat → Prop} {rt : Runtime} {s : State}

/-- The policy manages exactly the announced open windows. -/
theorem mem_windows_of_told (hm : Mirror rt) (ht : Told doomed rt.delivered s) (hl : Ledger s)
    (w : WindowId) : w ∈ rt.runtimePolicy.windowSet.windows ↔ (findWindow w s).isSome := by
  obtain ⟨life, hrun, hat⟩ := ht.stream.windows w
  rw [hm.windows w life hrun]
  cases hfind : findWindow w s with
  | some r =>
      obtain ⟨hmem, rfl, -⟩ := findWindow_some hfind
      have hpos := hl.windows.positive _ (List.mem_map_of_mem hmem)
      have hlife : life = .alive () := alive_of_findWindow hat ht.announced hfind
      exact iff_of_true ⟨Nat.one_le_iff_ne_zero.mp hpos, hlife⟩ rfl
  | none =>
      refine iff_of_false (fun h => hat.absent (fun r hr hid => ?_) h.2) Bool.false_ne_true
      have hno := List.find?_eq_none.mp hfind r hr
      rw [(ht.announced.windows r hr).1] at hno
      exact hno (by simpa using hid)

/-- The policy's outputs are the bridge's, rectangle by rectangle. -/
theorem outputs_of_told (hm : Mirror rt) (ht : Told doomed rt.delivered s) (o : OutputId) :
    rt.runtimePolicy.outputs[o]? = (liveOutput o s).map fun r => positive r.geometry := by
  obtain ⟨life, hrun, hat⟩ := ht.stream.outputs o
  rw [hm.outputs o life hrun]
  cases hfind : liveOutput o s with
  | some r =>
      have hmem := List.mem_of_find?_eq_some hfind
      have hid := List.find?_some hfind
      simp only [Bool.not_eq_true', decide_eq_true_eq] at hid
      obtain ⟨-, hannounced, hclean⟩ := ht.announced.outputs r hmem
      obtain ⟨rect, rfl, hrect⟩ := hat.announced r hmem hid.1 hannounced
      rw [hrect hclean]
      rfl
  | none =>
      have habsent : life.value = none := by
        refine hat.absent fun r hr hid => ?_
        have hno := List.find?_eq_none.mp hfind r hr
        rw [(ht.announced.outputs r hr).1] at hno
        exact hno (by simpa using hid)
      rw [habsent]
      rfl

end Sides

end XmonadWayland.Bridge

namespace XmonadWayland

open Bridge

/-- **Event stream**: in every run without failure the events about each window and each
output are in order, nothing is ever delivered about a window closed before it was
announced and every id is given out once; and after a manage sequence the policy manages
the live windows of the bridge and has its live outputs with their geometry. -/
theorem event_stream_in_step {cfg : Config} (hcfg : validateConfig cfg = .ok ())
    (loads : List (Option Config)) (decode : List UInt8 → String) (cbs : List Callback) :
    let sys := runSystem cbs (initialSystem cfg loads decode)
    let managed := managerManageStart sys
    (sys.bridge.failed = false →
      (∀ w, InOrder 3 [5, 11, 12, 13, 21, 25, 26, 27] 4
          ((sys.runtime.delivered.filter (aboutWindow w)).map Delivered.kind))
        ∧ (∀ o, InOrder 1 [1, 14] 2
          ((sys.runtime.delivered.filter (aboutOutput o)).map Delivered.kind))
        ∧ (∀ r ∈ sys.bridge.windows, r.closed = true → r.announced = false →
          ∀ cbs', (runSystem cbs' sys).bridge.failed = false →
            (runSystem cbs' sys).runtime.delivered.filter (aboutWindow r.id) = [])
        ∧ sys.bridge.issued.Nodup
        ∧ (∀ r ∈ sys.bridge.windows, r.id ∈ sys.bridge.issued)
        ∧ (∀ r ∈ sys.bridge.outputs, r.id ∈ sys.bridge.issued)
        ∧ ∀ r ∈ sys.bridge.seats, r.id ∈ sys.bridge.issued)
      ∧ (managed.bridge.failed = false →
        (∀ w, w ∈ managed.runtime.runtimePolicy.windowSet.windows
            ↔ (findWindow w managed.bridge).isSome)
          ∧ ∀ o, managed.runtime.runtimePolicy.outputs[o]?
            = (liveOutput o managed.bridge).map fun r => positive r.geometry) := by
  intro sys managed
  have h : Synced (fun _ => False) sys := synced_runSystem (synced_initial hcfg loads decode) cbs
  refine ⟨fun hf => ?_, fun hf => ?_⟩
  · have hstream := h.stream hf
    have hl := h.ledger hf
    refine ⟨inOrder_windows hstream, inOrder_outputs hstream, ?_, hl.nodup, ?_, ?_, ?_⟩
    · intro r hr hclosed hannounced cbs' hf'
      have hdoomed : Synced (fun w => w = r.id) sys :=
        ⟨h.toAgreement, h.mirror, fun _ => hstream.doom hl hr hclosed hannounced⟩
      exact no_events_of_doomed ((synced_runSystem hdoomed cbs').stream hf') rfl
    · exact fun r hr => hl.windows.mem_issued hl.issued (List.mem_map_of_mem hr)
    · exact fun r hr => hl.outputs.mem_issued hl.issued (List.mem_map_of_mem hr)
    · exact fun r hr => hl.seats.mem_issued hl.issued (List.mem_map_of_mem hr)
  · have htold : Told (fun _ => False) managed.runtime.delivered managed.bridge :=
      told_managerManageStart h hf
    have hmirror : Mirror managed.runtime := mirror_managerManageStart h.mirror
    have hl : Ledger managed.bridge := (level_managerManageStart h.toAgreement).ledger hf
    exact ⟨mem_windows_of_told hmirror htold hl, outputs_of_told hmirror htold⟩

/-- Two windows, of which one is closed before it is announced. -/
def closedCallbacks : List Callback :=
  [.registryXkb, .managerOutput, .outputPosition 1 0 0, .outputDimensions 1 800 600,
    .managerWindow, .managerWindow, .windowClosed 3]

def closedSystem : System :=
  runSystem closedCallbacks (initialSystem defaultConfig [] fun _ => "")

/-- The policy has window 2 and output 1, and is told nothing of a window that closed unannounced. -/
theorem event_stream_in_step_closed :
    2 ∈ (managerManageStart closedSystem).runtime.runtimePolicy.windowSet.windows
      ∧ (managerManageStart closedSystem).runtime.runtimePolicy.outputs[1]? = some ⟨0, 0, 800, 600⟩
      ∧ (runSystem [.managerManageStart, .managerRenderStart] closedSystem).runtime.delivered.filter
        (aboutWindow 3) = [] := by
  have hf : closedSystem.bridge.failed = false := by decide +kernel
  have hmanaged : (managerManageStart closedSystem).bridge.failed = false := by decide +kernel
  have hrendered : (runSystem [.managerManageStart, .managerRenderStart]
    closedSystem).bridge.failed = false := by decide +kernel
  have hwindow : (findWindow 2 (managerManageStart closedSystem).bridge).isSome = true := by
    decide +kernel
  have houtput : ((liveOutput 1 (managerManageStart closedSystem).bridge).map fun r =>
    positive r.geometry) = some ⟨0, 0, 800, 600⟩ := by decide +kernel
  have hclosed : ∃ r ∈ closedSystem.bridge.windows,
    r.id = 3 ∧ r.closed = true ∧ r.announced = false := by decide +kernel
  unfold closedSystem at hf hmanaged hrendered hwindow houtput hclosed ⊢
  obtain ⟨hrun, hagree⟩ := event_stream_in_step validateConfig_defaultConfig [] (fun _ => "")
    closedCallbacks
  obtain ⟨r, hr, hid, hclosed, hannounced⟩ := hclosed
  have hnone := (hrun hf).2.2.1 r hr hclosed hannounced _ hrendered
  rw [hid] at hnone
  exact ⟨((hagree hmanaged).1 2).mpr hwindow, ((hagree hmanaged).2 1).trans houtput, hnone⟩

end XmonadWayland
