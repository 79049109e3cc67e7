import XmonadWayland.Base.Deferred
import XmonadWayland.Bridge.Desk

/-!
# XmonadWayland.Effects

Effects of the policy wait for the next manage callback.  The callbacks of Haskell form a
machine that puts work off (`callbacks`); every run of the system is a run of that machine
(`leadsTo_runSystem`).
-/

namespace XmonadWayland

open Bridge

/-! ## The callbacks of Haskell -/

/-- `xw_event` and `xw_window_string`. -/
def answer (sys : System) : Delivered → System
  | .event kind ident a b c d =>
    if kind = 7 then manage sys
    else if kind = 8 then render sys
    else sys.deliver (.event kind ident a b c d)
  | .windowString kind ident text => sys.deliver (.windowString kind ident text)

/-- The callback is the one that manages. -/
def Delivered.manages : Delivered → Bool
  | .event kind _ _ _ _ _ => kind = 7
  | .windowString _ _ _ => false

/-- What `handleEvent` returns for the event of a callback. -/
def Runtime.returned (rt : Runtime) (d : Delivered) : List Effect :=
  match rt.decode d with
  | none => []
  | some ev => (handleEvent rt.runtimeConfig ev rt.runtimePolicy).2

/-- Haskell is called back, or something has happened to the bridge only. -/
inductive Occurrence where
  | callback (d : Delivered)
  | elsewhere (s : State)

namespace Occurrence

def run (sys : System) : Occurrence → System
  | callback d => answer sys d
  | elsewhere s => { sys with bridge := s }

def manages : Occurrence → Bool
  | callback d => d.manages
  | elsewhere _ => false

def returned (sys : System) : Occurrence → List Effect
  | callback d => sys.runtime.returned d
  | elsewhere _ => []

end Occurrence

/-! ## Executing -/

/-- An effect is recorded; the policy and the waiting effects stay, also when the
configuration is loaded again. -/
theorem execute_keeps (sys : System) (effect : Effect) :
    (execute sys effect).runtime.executed = sys.runtime.executed ++ [effect]
      ∧ (execute sys effect).runtime.pendingEffects = sys.runtime.pendingEffects
      ∧ (execute sys effect).runtime.runtimePolicy = sys.runtime.runtimePolicy := by
  cases effect with
  | reloadConfig =>
      simp only [execute, reload]
      split <;> exact ⟨rfl, rfl, rfl⟩
  | _ => exact ⟨rfl, rfl, rfl⟩

/-- Executing effects records them in order and keeps what is pending. -/
theorem executeAll_keeps (effects : List Effect) (sys : System) :
    (effects.foldl execute sys).runtime.executed = sys.runtime.executed ++ effects
      ∧ (effects.foldl execute sys).runtime.pendingEffects = sys.runtime.pendingEffects
      ∧ (effects.foldl execute sys).runtime.runtimePolicy = sys.runtime.runtimePolicy := by
  induction effects generalizing sys with
  | nil => simp
  | cons effect effects ih =>
      obtain ⟨hexecuted, hpending, hpolicy⟩ := execute_keeps sys effect
      obtain ⟨ihexecuted, ihpending, ihpolicy⟩ := ih (execute sys effect)
      refine ⟨?_, ihpending.trans hpending, ihpolicy.trans hpolicy⟩
      rw [List.foldl_cons, ihexecuted, hexecuted, List.append_assoc, List.singleton_append]

/-- A manage callback in this state pushes placements and focus, then it executes exactly
these effects; all the while nothing waits and the policy stays. -/
structure Executes (effects : List Effect) (sys : System) : Prop where
  order : manage sys = effects.foldl execute (Desk.pushPolicy sys)
  during : ∀ before after, effects = before ++ after →
    let now := before.foldl execute (Desk.pushPolicy sys)
    now.runtime.executed = sys.runtime.executed ++ before
      ∧ now.runtime.pendingEffects = [] ∧ now.runtime.runtimePolicy = sys.runtime.runtimePolicy

/-- The pending effects are executed in the order they were emitted. -/
theorem executes_pending (sys : System) :
    Executes sys.runtime.pendingEffects.reverse sys where
  order := rfl
  during before _ _ := executeAll_keeps before (Desk.pushPolicy sys)

/-- A manage cycle executes what is pending and leaves nothing. -/
theorem manage_keeps (sys : System) :
    (manage sys).runtime.executed
        = sys.runtime.executed ++ sys.runtime.pendingEffects.reverse
      ∧ (manage sys).runtime.pendingEffects = [] :=
  have h := (executes_pending sys).during _ [] (List.append_nil _).symm
  ⟨h.1, h.2.1⟩

/-! ## Waiting -/

/-- A delivered event executes nothing and may leave effects pending. -/
theorem deliver_keeps (rt : Runtime) (d : Delivered) :
    (rt.deliver d).executed = rt.executed
      ∧ (rt.deliver d).pendingEffects.reverse = rt.pendingEffects.reverse ++ rt.returned d := by
  unfold Runtime.deliver Runtime.returned
  cases rt.decode d with
  | none => simp
  | some ev => simp [Runtime.handle]

/-- The two transactions are no policy events. -/
theorem returned_transaction (rt : Runtime) {kind : Int} (h : kind = 7 ∨ kind = 8) (ident : Nat)
    (a b c d : Int) : rt.returned (.event kind ident a b c d) = [] := by
  rcases h with rfl | rfl <;> rfl

theorem Occurrence.returned_of_manages {o : Occurrence} (h : o.manages = true) (sys : System) :
    o.returned sys = [] := by
  cases o with
  | elsewhere s => rfl
  | callback d =>
      cases d with
      | windowString kind ident text => simp [manages, Delivered.manages] at h
      | event kind ident a b c d =>
          have hkind : kind = 7 := by simpa [manages, Delivered.manages] using h
          exact returned_transaction sys.runtime (Or.inl hkind) ident a b c d

/-- A manage cycle drains what is pending; anything else adds to it. -/
theorem answer_keeps (sys : System) (d : Delivered) :
    (answer sys d).runtime.pendingEffects.reverse
        = (if d.manages then [] else sys.runtime.pendingEffects.reverse) ++ sys.runtime.returned d
      ∧ (answer sys d).runtime.executed
        = sys.runtime.executed ++ if d.manages then sys.runtime.pendingEffects.reverse else [] := by
  have hdelivered := deliver_keeps sys.runtime d
  cases d with
  | windowString kind ident text =>
      simpa [answer, Delivered.manages, System.deliver, and_comm] using hdelivered
  | event kind ident a b c d =>
      by_cases hmanage : kind = 7
      · obtain ⟨hexecuted, hpending⟩ := manage_keeps sys
        simp [answer, Delivered.manages, hmanage, hexecuted, hpending, returned_transaction]
      · by_cases hrender : kind = 8
        · simp [answer, Delivered.manages, hrender, render, returned_transaction]
        · simpa [answer, Delivered.manages, hmanage, hrender, System.deliver, and_comm]
            using hdelivered

/-- Haskell puts the effects of its events off until it is asked to manage. -/
def callbacks : Deferring System Occurrence Effect where
  call := Occurrence.run
  flushes := Occurrence.manages
  yields := Occurrence.returned
  waiting sys := sys.runtime.pendingEffects.reverse
  done sys := sys.runtime.executed
  waiting_call sys o := by
    cases o with
    | callback d => exact (answer_keeps sys d).1
    | elsewhere s => exact (List.append_nil _).symm
  done_call sys o := by
    cases o with
    | callback d => exact (answer_keeps sys d).2
    | elsewhere s => exact (List.append_nil _).symm

/-! ## Runs of the system -/

/-- Callbacks of Haskell lead from one state to the other. -/
def LeadsTo (sys sys' : System) : Prop := ∃ os, callbacks.run os sys = sys'

namespace LeadsTo

variable {sys sys' sys'' : System}

theorem refl (sys : System) : LeadsTo sys sys := ⟨[], rfl⟩

theorem trans (h : LeadsTo sys sys') (h' : LeadsTo sys' sys'') : LeadsTo sys sys'' := by
  obtain ⟨os, rfl⟩ := h
  obtain ⟨os', rfl⟩ := h'
  exact ⟨os ++ os', callbacks.run_append os os' sys⟩

/-- Only the bridge has changed. -/
theorem elsewhere (h : sys'.runtime = sys.runtime) : LeadsTo sys sys' :=
  ⟨[.elsewhere sys'.bridge], congrArg (System.mk sys'.bridge) h.symm⟩

/-- What the bridge does alone leads on. -/
theorem onBridge (f : State → State) (sys : System) : LeadsTo sys (sys.onBridge f) := elsewhere rfl

/-- A manage cycle leads on. -/
theorem manage (sys : System) : LeadsTo sys (manage sys) :=
  ⟨[.callback (.event 7 0 0 0 0 0)], rfl⟩

/-- A render cycle leads on. -/
theorem render (sys : System) : LeadsTo sys (render sys) :=
  ⟨[.callback (.event 8 0 0 0 0 0)], rfl⟩

/-- So does an event that is not the start of a cycle. -/
theorem deliver {d : Delivered} (h : d.kind ≠ 7) (h' : d.kind ≠ 8) (sys : System) :
    LeadsTo sys (sys.deliver d) := by
  refine ⟨[.callback d], ?_⟩
  cases d with
  | event kind ident a b c d => exact (if_neg h).trans (if_neg h')
  | windowString kind ident text => rfl

/-- Where Haskell only hears events, the bridge may have changed in any way. -/
theorem hears {kinds : List Int} (h : Hears kinds sys.runtime sys'.runtime)
    (h7 : 7 ∉ kinds) (h8 : 8 ∉ kinds) : LeadsTo sys sys' := by
  have htold : LeadsTo sys { sys with runtime := sys'.runtime } := by
    refine h.induction (P := fun rt => LeadsTo sys { sys with runtime := rt }) (refl sys) ?_
    intro rt d hd hrt
    exact hrt.trans (deliver (fun h => h7 (h ▸ hd)) (fun h => h8 (h ▸ hd)) _)
  exact htold.trans (elsewhere rfl)

end LeadsTo

/-- The end of a manage sequence leads on. -/
theorem leadsTo_finishManage (sys : System) : LeadsTo sys (finishManage sys) := by
  have hcleared := LeadsTo.onBridge (fun s => { s with pointerCancelBatch := false }) sys
  unfold finishManage
  simp only
  split
  · exact hcleared.trans (LeadsTo.elsewhere rfl)
  · exact (hcleared.trans (LeadsTo.manage _)).trans (LeadsTo.elsewhere rfl)

/-- So do the stages before it. -/
theorem leadsTo_handedOver (sys : System) : LeadsTo sys (handedOver sys) :=
  ((LeadsTo.hears (hears_beforeQueue sys) (by decide) (by decide)).trans
    (LeadsTo.hears (hears_drainInput _) (by decide) (by decide))).trans
      (LeadsTo.hears (hears_publishDrag _) (by decide) (by decide))

/-- So does a render sequence. -/
theorem leadsTo_runRender (sys : System) : LeadsTo sys (runRender sys) := by
  have hsizes : LeadsTo (sys.onBridge fun s => { s with phase := .render })
      ((sys.onBridge fun s => { s with phase := .render }).deliverAll
        (sizeEvents sys.bridge.windows)) :=
    LeadsTo.hears (hears_sizeEvents sys.bridge.windows _) (by decide) (by decide)
  have hrendered := ((LeadsTo.onBridge _ sys).trans hsizes).trans (LeadsTo.render _)
  exact hrendered.trans (LeadsTo.elsewhere rfl)

/-- Every callback leads on. -/
theorem leadsTo_step (sys : System) (cb : Callback) : LeadsTo sys (sys.step cb) := by
  refine step_induction ?_ ?_ (fun cb => LeadsTo.onBridge (listen cb) sys) cb
  · rcases managerManageStart_cases sys with ⟨-, heq⟩ | ⟨message, -, heq⟩ | ⟨-, heq⟩ <;> rw [heq]
    · exact LeadsTo.refl sys
    · exact LeadsTo.onBridge _ sys
    · exact (leadsTo_handedOver sys).trans (leadsTo_finishManage _)
  · rcases managerRenderStart_cases sys with ⟨-, heq⟩ | ⟨message, -, heq⟩ | ⟨-, heq⟩ <;> rw [heq]
    · exact LeadsTo.refl sys
    · exact LeadsTo.onBridge _ sys
    · exact leadsTo_runRender sys

/-- Whatever the compositor calls back is a run of the callbacks of Haskell. -/
theorem leadsTo_runSystem (cbs : List Callback) (sys : System) :
    LeadsTo sys (runSystem cbs sys) :=
  runSystem_induction (P := LeadsTo sys) (fun t cb ht => ht.trans (leadsTo_step t cb))
    (LeadsTo.refl sys) cbs

/-! ## Effects in order -/

/-- Before the last manage callback everything has been executed, in order; what came
since is what the next one executes, after its placements and focus. -/
theorem effects_in_order (cfg : Config) (loads : List (Option Config))
    (decode : List UInt8 → String) :
    let start := initialSystem cfg loads decode
    let startup := cfg.startupCommands.map Effect.spawn
    (∀ since, callbacks.Defers since →
      (callbacks.run since start).runtime.executed = []
        ∧ Executes (startup ++ callbacks.yielded since start) (callbacks.run since start))
    ∧ (∀ before o since, o.manages = true → callbacks.Defers since →
      (callbacks.run (before ++ o :: since) start).runtime.executed
          = startup ++ callbacks.yielded before start
        ∧ Executes (callbacks.yielded since (callbacks.run (before ++ [o]) start))
          (callbacks.run (before ++ o :: since) start))
    ∧ ∀ sys, (execute sys .reloadConfig).runtime.runtimePolicy = sys.runtime.runtimePolicy
      ∧ (execute sys .reloadConfig).runtime.pendingEffects = sys.runtime.pendingEffects := by
  intro start startup
  have hstartup : callbacks.waiting start = startup := List.reverse_reverse startup
  refine ⟨fun since hsince => ?_, fun before o since ho hsince => ?_, fun sys => ?_⟩
  · obtain ⟨hdone, hwaiting⟩ := hsince.run start
    rw [hstartup] at hwaiting
    exact ⟨hdone, hwaiting ▸ executes_pending (callbacks.run since start)⟩
  · have hdone := Deferring.done_of_flush ho hsince before start
    have hwaiting := Deferring.waiting_of_flush ho hsince before start
    rw [hstartup] at hdone
    have hnothing : callbacks.yields (callbacks.run before start) o = [] := Occurrence.returned_of_manages ho _
    rw [Deferring.yielded_cons, hnothing, List.nil_append] at hwaiting
    rw [callbacks.run_append before [o]]
    exact ⟨hdone, hwaiting ▸ executes_pending (callbacks.run (before ++ o :: since) start)⟩
  · obtain ⟨-, hpending, hpolicy⟩ := execute_keeps sys .reloadConfig
    exact ⟨hpolicy, hpending⟩

/-- A panel at startup and Super+r for another configuration. -/
def startedConfig : Config :=
  { defaultConfig with
    startupCommands := [⟨"waybar", []⟩]
    keyBindings := [⟨keySym 'r', 64, .normalMode, .reload⟩] }

def startedSystem : System := initialSystem startedConfig [some defaultConfig] fun _ => ""

/-- A reload is executed while an effect is pending. -/
theorem effects_in_order_reload :
    let before := [Occurrence.callback (.event 20 0 0 0 0 0)]
    let since := [Occurrence.callback (.event 6 12 0 0 0 0)]
    let sys := callbacks.run (before ++ .callback (.event 7 0 0 0 0 0) :: since) startedSystem
    sys.runtime.executed = [.spawn ⟨"waybar", []⟩, .reloadConfig]
      ∧ Executes [.stopRuntime] sys := by
  intro before since sys
  have hrun := (effects_in_order startedConfig [some defaultConfig] fun _ => "").2.1 before
    (.callback (.event 7 0 0 0 0 0)) since rfl (List.forall_mem_singleton.mpr rfl)
  have hbefore : callbacks.yielded before startedSystem = [.reloadConfig] := by decide
  have hsince : callbacks.yielded since (callbacks.run
      (before ++ [.callback (.event 7 0 0 0 0 0)]) startedSystem) = [.stopRuntime] := by
    decide +kernel
  rw [← startedSystem, hbefore, hsince] at hrun
  exact hrun

end XmonadWayland
