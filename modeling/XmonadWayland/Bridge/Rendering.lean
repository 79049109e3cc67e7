import XmonadWayland.Bridge.Stage
import XmonadWayland.Policy.Drag

/-!
# XmonadWayland.Bridge.Rendering

What a render sequence may do.  It publishes actual sizes, which the policy only records,
and sends requests about rendering; the requests the protocol reserves for manage sequences
are not among them.
-/

namespace XmonadWayland.Bridge

/-! ## The policy -/

/-- Haskell records sizes of its windows and nothing else. -/
structure Records (rt rt' : Runtime) : Prop where
  policy : Acknowledged rt.runtimePolicy rt'.runtimePolicy
  config : rt'.runtimeConfig = rt.runtimeConfig
  pending : rt'.pendingEffects = rt.pendingEffects
  executed : rt'.executed = rt.executed

namespace Records

variable {rt rt' rt'' : Runtime}

theorem refl (rt : Runtime) : Records rt rt := ⟨.refl _, rfl, rfl, rfl⟩

theorem trans (h : Records rt rt') (h' : Records rt' rt'') : Records rt rt'' :=
  ⟨h.policy.trans h'.policy, h'.config.trans h.config, h'.pending.trans h.pending,
    h'.executed.trans h.executed⟩

end Records

/-- An acknowledged size has no effect. -/
theorem effects_windowActualSize (cfg : Config) (p : Policy) (wid : WindowId) (width height : Int) :
    (handleEvent cfg (.windowActualSize wid width height) p).2 = [] := by
  simp only [handleEvent, handleOrdinaryEvent]
  split <;> rfl

/-- Event 25 is an acknowledged size. -/
theorem records_deliver {rt : Runtime} (h : Settled rt.runtimePolicy) (ident : Nat)
    (a b c d : Int) : Records rt (rt.deliver (.event 25 ident a b c d)) := by
  have hdecode : rt.decode (.event 25 ident a b c d) = some (.windowActualSize ident a b) := rfl
  have hstep := acknowledged_step rt.runtimeConfig h ident a b
  simp only [Runtime.deliver, hdecode, Runtime.handle]
  exact ⟨hstep, rfl, by rw [effects_windowActualSize]; rfl, rfl⟩

/-- The size events record the sizes of the windows. -/
theorem records_sizeEvents {rt : Runtime} (h : Settled rt.runtimePolicy) (windows : List Window) :
    Records rt ((sizeEvents windows).foldl Runtime.deliver rt) := by
  rw [sizeEvents, List.foldl_map]
  refine List.foldlRecOn (motive := fun t => Records rt t) _ _ (.refl rt) fun t ht w _ => ?_
  exact ht.trans (records_deliver (ht.policy.settled h) _ _ _ _ _)

/-! ## The requests -/

/-- Nothing reserved for manage sequences was sent. -/
def RenderOnly (s s' : State) : Prop :=
  ∃ sent, s'.requests = s.requests ++ sent ∧ ∀ r ∈ sent, r.manageOnly = false

namespace RenderOnly

variable {s s' s'' : State}

theorem of_eq (h : s'.requests = s.requests) : RenderOnly s s' :=
  ⟨[], h.trans (List.append_nil _).symm, nofun⟩

theorem trans (h : RenderOnly s s') (h' : RenderOnly s' s'') : RenderOnly s s'' := by
  obtain ⟨sent, heq, hfree⟩ := h
  obtain ⟨sent', heq', hfree'⟩ := h'
  exact ⟨sent ++ sent', by rw [heq', heq, List.append_assoc],
    fun r hr => (List.mem_append.mp hr).elim (hfree r) (hfree' r)⟩

theorem foldl {α : Type} {f : State → α → State} (hf : ∀ s x, (f s x).requests = s.requests)
    (xs : List α) (s : State) : RenderOnly s (xs.foldl f s) :=
  List.foldlRecOn (motive := fun t => RenderOnly s t) xs f (of_eq rfl)
    fun t ht x _ => ht.trans (of_eq (hf t x))

end RenderOnly

/-- Correcting a position sends nothing. -/
theorem requests_xwSetRenderPosition (id : Nat) (x y : Int) (s : State) :
    (xwSetRenderPosition id x y s).requests = s.requests := by
  unfold xwSetRenderPosition
  split
  · rfl
  · split
    · rfl
    · split <;> rfl

/-- Sending the stop belongs to no manage phase. -/
theorem renderOnly_sendStop (s : State) : RenderOnly s (sendStop s) := by
  unfold sendStop
  split
  · exact ⟨[.stop], rfl, by simp [Request.manageOnly]⟩
  · exact .of_eq rfl

/-- A render transaction sends requests of the render phase only. -/
theorem renderOnly_runRender (sys : System) : RenderOnly sys.bridge (runRender sys).bridge := by
  have hrender : RenderOnly sys.bridge (render ((sys.onBridge fun s =>
      { s with phase := .render }).deliverAll (sizeEvents sys.bridge.windows))).bridge :=
    .foldl (fun s q => requests_xwSetRenderPosition _ _ _ s) _ { sys.bridge with phase := .render }
  have hfinish : ∀ s : State, RenderOnly s (if s.failed then s
      else { send ((renderable s).flatMap (showRequests s) ++ stackRequests s ++ [.renderFinish]) s
        with awaitingRender := false }) := by
    intro s
    split
    · exact .of_eq rfl
    · exact ⟨_, rfl, manageOnly_renderRequests s⟩
  exact ((hrender.trans (hfinish _)).trans (.of_eq rfl)).trans (renderOnly_sendStop _)

/-- A render sequence sends requests about rendering only. -/
theorem renderOnly_managerRenderStart (sys : System) :
    RenderOnly sys.bridge (managerRenderStart sys).bridge := by
  rcases managerRenderStart_cases sys with ⟨-, heq⟩ | ⟨message, -, heq⟩ | ⟨-, heq⟩ <;> rw [heq]
  · exact .of_eq rfl
  · exact .of_eq rfl
  · exact renderOnly_runRender sys

/-- What Haskell keeps in a render sequence. -/
theorem records_managerRenderStart {sys : System} (h : Settled sys.runtime.runtimePolicy) :
    Records sys.runtime (managerRenderStart sys).runtime := by
  rcases managerRenderStart_cases sys with ⟨-, heq⟩ | ⟨message, -, heq⟩ | ⟨-, heq⟩ <;> rw [heq]
  · exact .refl _
  · exact .refl _
  · exact (records_sizeEvents h sys.bridge.windows).trans ⟨.refl _, rfl, rfl, rfl⟩

/-! ## Both together -/

/-- **Render sequences**: acknowledged sizes change those of managed windows and nothing else of
the policy, and have no effect; the bridge sends nothing that is reserved for manage sequences,
and Haskell keeps its effects for the next of these. -/
theorem render_keeps_policy {cfg : Config} {p : Policy} (h : Reachable cfg p) :
    (∀ sizes : List (WindowId × Int × Int),
      let evs := sizes.map fun s => Event.windowActualSize s.1 s.2.1 s.2.2
      let p' := runEvents cfg evs p
      (p'.windowSet = p.windowSet ∧ p'.outputs = p.outputs ∧ p'.workAreas = p.workAreas
        ∧ p'.windowMetadata = p.windowMetadata ∧ p'.activeMode = p.activeMode
        ∧ p'.sessionLocked = p.sessionLocked ∧ p'.pointerOperation = p.pointerOperation
        ∧ p'.pointerAnchors = p.pointerAnchors)
      ∧ (∀ wid : WindowId, p'.pointerActualSizes[wid]? ≠ p.pointerActualSizes[wid]? →
        wid ∈ p.windowSet.windows)
      ∧ ∀ ev ∈ evs, ∀ q, (handleEvent cfg ev q).2 = [])
    ∧ ∀ sys : System, sys.runtime.runtimePolicy = p →
      let sys' := managerRenderStart sys
      Acknowledged p sys'.runtime.runtimePolicy
        ∧ sys'.runtime.pendingEffects = sys.runtime.pendingEffects
        ∧ ∃ sent, sys'.bridge.requests = sys.bridge.requests ++ sent
          ∧ ∀ r ∈ sent, r.manageOnly = false := by
  refine ⟨fun sizes => ?_, fun sys hp => ?_⟩
  · have hack := acknowledged_runEvents cfg (settled_of_reachable h) sizes
    refine ⟨?_, hack.sizes, fun ev hev q => ?_⟩
    · rw [hack.same]
      exact ⟨rfl, rfl, rfl, rfl, rfl, rfl, rfl, rfl⟩
    · obtain ⟨s, -, rfl⟩ := List.mem_map.mp hev
      exact effects_windowActualSize cfg q s.1 s.2.1 s.2.2
  · have hset : Settled sys.runtime.runtimePolicy := hp ▸ settled_of_reachable h
    have hrecords := records_managerRenderStart hset
    exact ⟨hp ▸ hrecords.policy, hrecords.pending, renderOnly_managerRenderStart sys⟩

/-- A size during a drag and one of a window that is gone. -/
theorem render_keeps_policy_drag :
    let p := runEvents defaultConfig [.outputUpsert 1 ⟨0, 0, 800, 600⟩, .windowAdded 10,
      .actionRequested .toggleFloat, .windowActualSize 10 400 300, .pointerStarted 5 10 5 0 0]
      (initialPolicy defaultConfig)
    let p' := runEvents defaultConfig [.windowActualSize 10 390 280, .windowActualSize 11 5 5] p
    p'.pointerOperation = p.pointerOperation ∧ p'.pointerAnchors = p.pointerAnchors := by
  intro p p'
  have hreach : Reachable defaultConfig p := reachable_runEvents validateConfig_defaultConfig _
  have hkept := ((render_keeps_policy hreach).1 [(10, 390, 280), (11, 5, 5)]).1
  exact hkept.2.2.2.2.2.2

end XmonadWayland.Bridge
