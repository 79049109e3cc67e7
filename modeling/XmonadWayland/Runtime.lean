import XmonadWayland.Bridge.Listener
import XmonadWayland.Bridge.Request
import XmonadWayland.Policy.Handle

/-!
# XmonadWayland.Runtime

`src/XMonad/Wayland/Runtime.hs` on top of the bridge: events become policy
transitions, the manage callback pushes the policy to the compositor and executes the
pending effects, the render callback corrects anchored positions.  What the loader of
the configuration will return, and how bytes are decoded, is given with the runtime;
what Haskell was told and what it executed is kept, oldest first.
-/

namespace XmonadWayland

open Bridge

structure Runtime where
  runtimeConfig : Config
  runtimePolicy : Policy
  pendingEffects : List Effect
  reloadConfig : List (Option Config)
  peekCString : List UInt8 → String
  delivered : List Delivered := []
  executed : List Effect := []

/-- The bridge and the Haskell side of the process. -/
structure System where
  bridge : Bridge.State
  runtime : Runtime

/-! ## Events -/

/-- Run the policy on an event; effects are collected newest first. -/
def Runtime.handle (ev : Event) (rt : Runtime) : Runtime :=
  let (p, effects) := handleEvent rt.runtimeConfig ev rt.runtimePolicy
  { rt with runtimePolicy := p, pendingEffects := effects.reverse ++ rt.pendingEffects }

/-- The policy event of a callback other than manage and render. -/
def Runtime.decode (rt : Runtime) : Delivered → Option Event
  | .event kind ident a b c d =>
    if kind = 20 then
      (bindingAt rt.runtimeConfig.keyBindings rt.runtimePolicy.activeMode ident).map
        .actionRequested
    else decodeEvent kind ident a b c d
  | .windowString kind ident text =>
    if kind = 26 then some (.windowAppId ident (rt.peekCString text))
    else if kind = 27 then some (.windowTitle ident (rt.peekCString text))
    else none

/-- An event is that of a key, of a number of the protocol, or of a text. -/
theorem decode_cases {rt : Runtime} {d : Delivered} {ev : Event} (h : rt.decode d = some ev) :
    (∃ action, ev = .actionRequested action)
      ∨ (∃ kind ident a b c e, d = .event kind ident a b c e
        ∧ decodeEvent kind ident a b c e = some ev)
      ∨ ∃ ident text, ev = .windowAppId ident text ∨ ev = .windowTitle ident text := by
  cases d with
  | event kind ident a b c e =>
      simp only [Runtime.decode] at h
      split at h
      · obtain ⟨action, -, rfl⟩ := Option.map_eq_some_iff.mp h
        exact Or.inl ⟨action, rfl⟩
      · exact Or.inr (Or.inl ⟨kind, ident, a, b, c, e, rfl, h⟩)
  | windowString kind ident text =>
      refine Or.inr (Or.inr ⟨ident, rt.peekCString text, ?_⟩)
      simp only [Runtime.decode] at h
      split at h
      · exact Or.inl (Option.some.inj h).symm
      · split at h
        · exact Or.inr (Option.some.inj h).symm
        · contradiction

/-- `xw_event` for the kinds other than 7 and 8, and `xw_window_string`. -/
def Runtime.deliver (rt : Runtime) (d : Delivered) : Runtime :=
  let rt' := { rt with delivered := rt.delivered ++ [d] }
  match rt.decode d with
  | none => rt'
  | some ev => rt'.handle ev

/-- An event is logged and decoded. -/
theorem deliver_cases (rt : Runtime) (d : Delivered) :
    (rt.deliver d).delivered = rt.delivered ++ [d]
      ∧ (rt.deliver d).runtimeConfig = rt.runtimeConfig
      ∧ (rt.decode d = none ∧ (rt.deliver d).runtimePolicy = rt.runtimePolicy
        ∨ ∃ ev, rt.decode d = some ev
          ∧ (rt.deliver d).runtimePolicy = step rt.runtimeConfig rt.runtimePolicy ev) := by
  unfold Runtime.deliver
  simp only
  split
  · next h => exact ⟨rfl, rfl, Or.inl ⟨h, rfl⟩⟩
  · next ev h => exact ⟨rfl, rfl, Or.inr ⟨ev, h, rfl⟩⟩

def System.deliver (sys : System) (d : Delivered) : System :=
  { sys with runtime := sys.runtime.deliver d }

def System.deliverAll (ds : List Delivered) (sys : System) : System :=
  { sys with runtime := ds.foldl Runtime.deliver sys.runtime }

/-- Change the bridge only. -/
def System.onBridge (f : Bridge.State → Bridge.State) (sys : System) : System :=
  { sys with bridge := f sys.bridge }

/-! ## Manage and render -/

/-- The clamp before a C int; `bounded` and `boundedCoordinate` of `Runtime.hs`. -/
def placementRequests (placement : Placement) (s : Bridge.State) : Bridge.State :=
  let r := placement.placementRect
  xwSetWindow placement.placementWindow placement.placementVisible (bounded r.rectX)
    (bounded r.rectY) (bounded r.rectWidth) (bounded r.rectHeight) placement.placementFocused
    (xwSetMode placement.placementWindow (placement.placementOutput.getD 0)
      placement.placementFloating placement.placementFullscreen s)

/-- The operation of the policy as the bridge numbers it. -/
def operationTriple (p : Policy) : Nat × Nat × Nat :=
  match p.pointerOperation with
  | none => (0, 0, 0)
  | some op => (op.pointerSeat, op.pointerWindow, op.pointerEdges)

/-- Push the policy's current placements and focus to the compositor. -/
def applyPolicy (p : Policy) (s : Bridge.State) : Bridge.State :=
  let s := xwSetBindingMode p.activeMode.fromEnum s
  let (seat, window, edges) := operationTriple p
  let s := xwSetPointerOperation seat window edges s
  let s := xwSetOutput ((focusedOutput p).getD 0) s
  let s := (renderPolicy p).foldl (fun s placement => placementRequests placement s) s
  xwFocus ((focusedWindow p).getD 0) s

/-- A declarative replacement is accepted when it is valid and has the same
workspaces; invalid replacements retain the old map. -/
def acceptedReload (rt : Runtime) : Option Config :=
  (rt.reloadConfig.head?.join).filter fun cfg =>
    validateConfig cfg = .ok () ∧ cfg.workspaceIds = rt.runtimeConfig.workspaceIds

def reload (sys : System) : System :=
  let rt := { sys.runtime with reloadConfig := sys.runtime.reloadConfig.tail }
  match acceptedReload sys.runtime with
  | none => { sys with runtime := rt }
  | some cfg =>
    { bridge := xwSetBindingMode rt.runtimePolicy.activeMode.fromEnum
        (xwResetBindings cfg sys.bridge)
      runtime := { rt with runtimeConfig := cfg } }

/-- Effects on other processes and on the picker's overlay leave bridge and policy
alone; a successful restart replaces the process. -/
def execute (sys : System) (effect : Effect) : System :=
  let sys := { sys with
    runtime := { sys.runtime with executed := sys.runtime.executed ++ [effect] } }
  match effect with
  | .closeWindow wid => sys.onBridge (xwClose wid)
  | .stopRuntime => sys.onBridge xwStop
  | .reloadConfig => reload sys
  | _ => sys

/-- Event 7. -/
def manage (sys : System) : System :=
  let rt := sys.runtime
  let sys : System :=
    { bridge := applyPolicy rt.runtimePolicy sys.bridge
      runtime := { rt with
        pendingEffects := []
        delivered := rt.delivered ++ [.event 7 0 0 0 0 0] } }
  rt.pendingEffects.reverse.foldl execute sys

/-- What holds when the policy has been pushed and is kept by every effect. -/
theorem manage_induction {P : System → Prop} {sys : System}
    (hpushed : P {
      bridge := applyPolicy sys.runtime.runtimePolicy sys.bridge
      runtime := { sys.runtime with
        pendingEffects := []
        delivered := sys.runtime.delivered ++ [.event 7 0 0 0 0 0] } })
    (hexecute : ∀ t effect, P t → P (execute t effect)) : P (manage sys) :=
  List.foldlRecOn sys.runtime.pendingEffects.reverse execute hpushed
    fun t ht effect _ => hexecute t effect ht

/-- Event 8 may only correct anchored positions using acknowledged client sizes. -/
def render (sys : System) : System :=
  { bridge := (renderPointerPositions sys.runtime.runtimePolicy).foldl
      (fun s (wid, x, y) => xwSetRenderPosition wid (bounded x) (bounded y) s) sys.bridge
    runtime := { sys.runtime with
      delivered := sys.runtime.delivered ++ [.event 8 0 0 0 0 0] } }

end XmonadWayland
