import XmonadWayland.Bridge.Log
import XmonadWayland.Bridge.Overlay

/-!
# XmonadWayland.Bridge.Desk

The process with its picker.  The effects of a manage sequence call the picker one after
another, a failure of the bridge withdraws it, and its layer surface calls back at any
time.  Without the picker it is the system (`system_runDesk`).
-/

namespace XmonadWayland.Bridge

/-- The process and the calls its picker has seen; `creations` is what the compositor
will answer to the next overlays. -/
structure Desk where
  system : System
  creations : List Creation := []
  calls : List (State × PickerCall) := []

namespace Desk

def picker (d : Desk) : Picker := runPicker d.calls

def call (d : Desk) (c : PickerCall) : Desk :=
  { d with calls := d.calls ++ [(d.system.bridge, c)] }

/-- A part of the system that calls the picker by `fail` only. -/
def onSystem (f : System → System) (d : Desk) : Desk :=
  let d' := { d with system := f d.system }
  if d'.system.bridge.failures = d.system.bridge.failures then d' else d'.call .failed

/-- The label of a candidate. -/
def candidateLabel (candidate : Char × Rect) : PickerLabel where
  x := bounded candidate.2.rectX
  y := bounded candidate.2.rectY
  width := bounded candidate.2.rectWidth
  height := bounded candidate.2.rectHeight
  letter := candidate.1.toNat % 256

def execute (d : Desk) (effect : Effect) : Desk :=
  let d := d.onSystem fun sys => XmonadWayland.execute sys effect
  match effect with
  | .showPicker candidates =>
    candidates.zipIdx.foldl (fun d p => d.call (.pickerLabel p.2 (candidateLabel p.1)))
      ({ d with creations := d.creations.tail }.call
        (.pickerShow (candidates.length % 4294967296) (d.creations.headD .created)))
  | .hidePicker => d.call .pickerHide
  | _ => d

/-- The policy is pushed before the effects are executed. -/
def pushPolicy (sys : System) : System :=
  { bridge := applyPolicy sys.runtime.runtimePolicy sys.bridge
    runtime := { sys.runtime with
      pendingEffects := []
      delivered := sys.runtime.delivered ++ [.event 7 0 0 0 0 0] } }

def manage (d : Desk) : Desk :=
  d.system.runtime.pendingEffects.reverse.foldl execute (d.onSystem pushPolicy)

/-- The end of a manage sequence. -/
def endManage (s : State) : State :=
  let s := if s.failed then s
    else { send [.manageFinish] s with managed := true, awaitingRender := true }
  sendStop { s with phase := .idle }

def finishManage (d : Desk) : Desk :=
  let d := d.onSystem fun sys => sys.onBridge fun s => { s with pointerCancelBatch := false }
  let d := if d.system.bridge.failed then d else d.manage
  d.onSystem fun sys => sys.onBridge endManage

def managerManageStart (d : Desk) : Desk :=
  let s := d.system.bridge
  if s.failed ∨ s.phase ≠ .idle ∨ s.awaitingRender ∨ !s.xkb then
    d.onSystem Bridge.managerManageStart
  else (d.onSystem handedOver).finishManage

/-! ## Runs -/

/-- A callback of the bridge, or a call of the picker. -/
inductive Step where
  | callback (cb : Callback)
  | call (c : PickerCall)

def step (d : Desk) : Step → Desk
  | .callback .managerManageStart => d.managerManageStart
  | .callback .managerFinished =>
    (d.onSystem fun sys => sys.step .managerFinished).call .finished
  | .callback cb => d.onSystem fun sys => sys.step cb
  | .call c => d.call c

/-- The callbacks among the steps. -/
def Step.callback? : Step → Option Callback
  | .callback cb => some cb
  | .call _ => none

/-! ## The system of a desk -/

/-- A change of the system is seen in the system. -/
@[simp] theorem system_onSystem (f : System → System) (d : Desk) :
    (d.onSystem f).system = f d.system := by
  unfold onSystem
  simp only
  split <;> rfl

/-- Executing an effect at the desk executes it in the system. -/
theorem system_execute (d : Desk) (effect : Effect) :
    (d.execute effect).system = XmonadWayland.execute d.system effect := by
  have hlabels : ∀ (labels : List ((Char × Rect) × Nat)) (d : Desk),
      (labels.foldl (fun d p => d.call (.pickerLabel p.2 (candidateLabel p.1))) d).system
        = d.system := fun labels d =>
    List.foldlRecOn (motive := fun t : Desk => t.system = d.system) labels _ rfl
      fun t ht _ _ => ht
  unfold execute
  cases effect with
  | showPicker candidates =>
      simp only
      rw [hlabels]
      exact system_onSystem _ d
  | hidePicker => exact system_onSystem _ d
  | _ => exact system_onSystem _ d

/-- The manage callback at the desk is the system's. -/
theorem system_manage (d : Desk) : d.manage.system = XmonadWayland.manage d.system := by
  have hfold : ∀ (effects : List Effect) (d : Desk),
      (effects.foldl execute d).system = effects.foldl XmonadWayland.execute d.system := by
    intro effects
    induction effects with
    | nil => exact fun d => rfl
    | cons effect effects ih =>
        intro d
        rw [List.foldl_cons, List.foldl_cons, ih, system_execute]
  rw [manage, hfold, system_onSystem]
  rfl

/-- So is the end of a manage transaction. -/
theorem system_finishManage (d : Desk) :
    d.finishManage.system = Bridge.finishManage d.system := by
  unfold finishManage Bridge.finishManage
  simp only [system_onSystem]
  split
  · rw [system_onSystem]
    rfl
  · rw [system_manage, system_onSystem]
    rfl

/-- So is the callback that starts one. -/
theorem system_managerManageStart (d : Desk) :
    d.managerManageStart.system = Bridge.managerManageStart d.system := by
  unfold managerManageStart
  simp only
  split
  · exact system_onSystem _ d
  · next h =>
    simp only [not_or, ne_eq, Decidable.not_not, Bool.not_eq_true, Bool.not_eq_false'] at h
    obtain ⟨hfailed, hphase, hrender, hxkb⟩ := h
    rw [system_finishManage, system_onSystem,
      managerManageStart_of_starts ⟨hfailed, hphase, hrender, hxkb⟩, runManage_eq, handedOver]

/-- The calls of the picker do not change the system. -/
theorem system_step (d : Desk) (st : Step) :
    (d.step st).system = st.callback?.elim d.system d.system.step := by
  cases st with
  | call c => rfl
  | callback cb =>
      cases cb with
      | managerManageStart => exact system_managerManageStart d
      | managerFinished => exact system_onSystem (fun sys => sys.step .managerFinished) d
      | _ => exact system_onSystem _ d

end Desk

def runDesk (steps : List Desk.Step) (d : Desk) : Desk := steps.foldl Desk.step d

/-- The system of a run is the run of its callbacks. -/
theorem system_runDesk (steps : List Desk.Step) (d : Desk) :
    (runDesk steps d).system = runSystem (steps.filterMap Desk.Step.callback?) d.system := by
  induction steps generalizing d with
  | nil => rfl
  | cons st steps ih =>
      have hrest := ih (d.step st)
      rw [Desk.system_step] at hrest
      cases st with
      | call c => exact hrest
      | callback cb => exact hrest

def initialDesk (cfg : Config) (loads : List (Option Config)) (decode : List UInt8 → String)
    (creations : List Creation) : Desk where
  system := initialSystem cfg loads decode
  creations := creations

end XmonadWayland.Bridge
