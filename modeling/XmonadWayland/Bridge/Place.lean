import XmonadWayland.Bridge.Desk

/-!
# XmonadWayland.Bridge.Place

The output the overlay is on.  The picker keeps it from its showing to its hiding, and
nothing tells the picker that the output has been destroyed: a manage sequence destroys
the outputs removed since the last one.
-/

namespace XmonadWayland.Bridge

/-! ## The picker -/

def outputIds (s : State) : List Nat := s.outputs.map Output.id

/-- An active overlay is on an output of the bridge. -/
def OnOutput (p : Picker) (s : State) : Prop :=
  p.active = true → ∃ id ∈ outputIds s, p.overlay.output = some id

/-- The outputs stay. -/
def Remain (s s' : State) : Prop := outputIds s ⊆ outputIds s'

theorem Remain.fields {s s' : State} (h : s'.outputs = s.outputs) : Remain s s' := by
  unfold Remain outputIds
  rw [h]
  exact List.Subset.refl _

theorem Remain.trans {s s' s'' : State} (h : Remain s s') (h' : Remain s' s'') : Remain s s'' :=
  List.Subset.trans h h'

/-- After a quiet change the outputs remain. -/
theorem Remain.of_quiet {still : Prop} {s s' : State} (h : Quiet still s s') : Remain s s' := by
  unfold Remain outputIds
  rw [h.outputIds]
  exact List.Subset.refl _

/-- The end of a transaction. -/
theorem Remain.finish {g : State → State} (hg : ∀ s, Quiet True s (g s)) (s : State) :
    Remain s (sendStop { (if s.failed then s else g s) with phase := .idle }) := by
  have hidle : Remain s { s with phase := .idle } := Remain.fields rfl
  exact hidle.trans (Remain.of_quiet (quiet_finish hg s))

/-- After a policy push the outputs remain. -/
theorem remain_applyPolicy (p : Policy) (s : State) : Remain s (applyPolicy p s) := by
  rw [applyPolicy_eq]
  refine Remain.trans ?_ (Remain.of_quiet (quiet_pushed p _))
  refine (Remain.of_quiet (quiet_xwSetBindingMode p.activeMode.fromEnum s)).trans ?_
  exact Remain.fields (records_xwSetPointerOperation _ _ _ _).2.1

/-- While the outputs remain the picker is on one of them. -/
theorem OnOutput.remain {p : Picker} {s s' : State} (h : OnOutput p s) (hr : Remain s s') :
    OnOutput p s' := fun hactive =>
  (h hactive).imp fun _ hid => ⟨hr hid.1, hid.2⟩

theorem OnOutput.fields {p p' : Picker} {s : State} (h : OnOutput p s) (hactive : p'.active = p.active)
    (houtput : p'.overlay.output = p.overlay.output) : OnOutput p' s := by
  unfold OnOutput
  rw [hactive, houtput]
  exact h

/-- The picker is put on a recorded output. -/
theorem mem_of_pickerOutput {s : State} {output : Output} (h : pickerOutput s = some output) :
    output.id ∈ outputIds s := by
  have hfiltered : output ∈ s.outputs.filter fun output =>
      !output.removed && output.announced && output.hasDimensions := by
    rcases Option.or_eq_some_iff.mp h with hfocused | ⟨-, hfirst⟩
    · exact List.mem_of_find?_eq_some hfocused
    · exact List.mem_of_head? hfirst
  exact List.mem_map_of_mem (List.mem_of_mem_filter hfiltered)

/-- Allocating and drawing keep the overlay where it is. -/
theorem place_redraw (s : State) (a : Allocation) (p : Picker) :
    (pickerRedraw s a p).active = p.active
      ∧ (pickerRedraw s a p).overlay.output = p.overlay.output := by
  have hallocated : ∀ stride, (pickerAllocate stride a p).active = p.active
      ∧ (pickerAllocate stride a p).overlay.output = p.overlay.output := by
    intro stride
    unfold pickerAllocate
    cases a with
    | noDescriptor => exact ⟨rfl, rfl⟩
    | unusable fd => exact ⟨rfl, rfl⟩
    | shared fd pool buffer =>
        simp only
        split <;> exact ⟨rfl, rfl⟩
  unfold pickerRedraw
  simp only
  split
  · exact ⟨rfl, rfl⟩
  split
  · split
    · exact hallocated _
    · exact hallocated _
  · exact ⟨rfl, rfl⟩

/-- A picker call keeps the picker on an output. -/
theorem OnOutput.call {p : Picker} {s : State} (h : OnOutput p s) (c : PickerCall) :
    OnOutput (p.call s c) s := by
  have hwithdraw : OnOutput (pickerWithdraw p) s := by
    unfold pickerWithdraw
    split
    · exact fun hactive => absurd hactive Bool.false_ne_true
    · exact h
  cases c with
  | pickerShow count creation =>
      simp only [Picker.call]
      cases hplace : pickerPlace s count p with
      | none =>
          simp only [xwPickerShow, hplace]
          exact h
      | some output =>
          have houtput : pickerOutput s = some output := by
            unfold pickerPlace at hplace
            split at hplace
            · contradiction
            · exact hplace
          cases creation with
          | created =>
              rw [xwPickerShow_created hplace]
              exact fun _ => ⟨output.id, mem_of_pickerOutput houtput, rfl⟩
          | noSurface =>
              simp only [xwPickerShow, hplace]
              exact h.fields rfl rfl
          | noLayerSurface =>
              simp only [xwPickerShow, hplace]
              exact h.fields rfl rfl
  | pickerLabel index label =>
      simp only [Picker.call, xwPickerLabel]
      split
      · exact h
      · exact h.fields rfl rfl
  | pickerHide => exact fun hactive => absurd hactive Bool.false_ne_true
  | layerConfigure width height a =>
      simp only [Picker.call, pickerLayerConfigure]
      split
      · exact h
      · obtain ⟨hactive, houtput⟩ := place_redraw s a { p with overlay := { p.overlay with
          width := width, height := height, configured := true } }
        exact h.fields hactive houtput
  | layerClosed =>
      simp only [Picker.call, pickerLayerClosed]
      split
      · exact h
      · exact h.fields rfl rfl
  | failed => exact hwithdraw
  | finished => exact hwithdraw
  | _ => exact h.fields rfl rfl

/-! ## The desk -/

/-- The overlay of the process is on an output that exists. -/
def Desk.Placed (d : Desk) : Prop := OnOutput d.picker d.system.bridge

namespace Desk.Placed

variable {d : Desk}

/-- A picker call at the desk keeps it placed. -/
theorem call (h : d.Placed) (c : PickerCall) : (d.call c).Placed := by
  have hcalled := OnOutput.call h c
  rw [Desk.picker, ← runPicker_snoc] at hcalled
  exact hcalled

/-- A failure withdraws the overlay. -/
theorem onSystem_of_onOutput {f : System → System} (h : OnOutput d.picker (f d.system).bridge) :
    (d.onSystem f).Placed := by
  have hkept : Desk.Placed { d with system := f d.system } := h
  unfold Desk.onSystem
  simp only
  split
  · exact hkept
  · exact hkept.call .failed

/-- A change under which the outputs remain keeps the picker placed. -/
theorem onSystem {f : System → System} (h : d.Placed)
    (hr : Remain d.system.bridge (f d.system).bridge) : (d.onSystem f).Placed :=
  onSystem_of_onOutput (OnOutput.remain h hr)

/-- Executing an effect keeps it placed. -/
theorem execute (h : d.Placed) (effect : Effect) : (d.execute effect).Placed := by
  have hexecuted := h.onSystem (f := fun sys => XmonadWayland.execute sys effect)
    (Remain.of_quiet (quiet_execute d.system effect).1)
  unfold Desk.execute
  cases effect with
  | showPicker candidates =>
      simp only
      generalize Desk.onSystem _ d = executed at hexecuted ⊢
      have hnext : Desk.Placed { executed with creations := executed.creations.tail } := hexecuted
      exact List.foldlRecOn _ _ (hnext.call _) fun t ht _ _ => ht.call _
  | hidePicker => exact hexecuted.call .pickerHide
  | _ => exact hexecuted

/-- The manage callback keeps it placed. -/
theorem manage (h : d.Placed) : d.manage.Placed := by
  have hpushed : (d.onSystem Desk.pushPolicy).Placed :=
    h.onSystem (remain_applyPolicy d.system.runtime.runtimePolicy d.system.bridge)
  exact List.foldlRecOn _ _ hpushed fun t ht effect _ => ht.execute effect

/-- So does the end of a manage transaction. -/
theorem finishManage (h : d.Placed) : d.finishManage.Placed := by
  have hcleared := h.onSystem (f := fun sys => sys.onBridge fun s =>
    { s with pointerCancelBatch := false }) (Remain.fields rfl)
  have hend : ∀ s, Remain s (Desk.endManage s) := fun s => Remain.finish quiet_manageFinish s
  unfold Desk.finishManage
  simp only
  split
  · exact hcleared.onSystem (hend _)
  · exact hcleared.manage.onSystem (hend _)

end Desk.Placed

/-! ## Manage sequences -/

/-- An output that has not been removed stays. -/
def Outlives (output : Output) (s : State) : Prop := output.removed = false → output.id ∈ outputIds s

/-- An output survives the lifecycle update unless it was removed. -/
theorem outlives_updateLifecycle {sys : System} {output : Output}
    (h : output ∈ sys.bridge.outputs) : Outlives output (updateLifecycle sys).bridge := by
  intro hlive
  have hkept : output ∈ (dropWindows (dropOutputs sys)).bridge.outputs := by
    refine List.mem_filter.mpr ⟨h, ?_⟩
    rw [hlive]
    rfl
  have hpublished : output.id ∈ outputIds (publishOutputs (dropWindows (dropOutputs sys))).bridge := by
    have hids := ids_publishedOutputs (dropWindows (dropOutputs sys)).bridge.outputs
    have hsame : outputIds (publishOutputs (dropWindows (dropOutputs sys))).bridge
        = (dropWindows (dropOutputs sys)).bridge.outputs.map Output.id := by
      rw [← hids]
      unfold publishOutputs
      simp only
      split <;> rfl
    rw [hsame]
    exact List.mem_map_of_mem hkept
  unfold updateLifecycle
  simp only
  split
  · exact hpublished
  · refine Remain.of_quiet (quiet_xwSetBindingMode _ _) ?_
    refine Remain.of_quiet (quiet_configurePrimary _ _) ?_
    exact hpublished

/-- Draining the queue leaves the outputs. -/
theorem outputs_drainInput (sys : System) :
    (drainInput sys).bridge.outputs = sys.bridge.outputs :=
  drainEvents_induction (P := fun s => s.outputs = sys.bridge.outputs) _ rfl fun _ _ h => h

/-- Publishing the drag leaves the outputs. -/
theorem outputs_publishDrag (sys : System) :
    (publishDrag sys).bridge.outputs = sys.bridge.outputs := by
  rcases publishDrag_cases sys with heq | ⟨id, events, -, heq⟩ <;> rw [heq]
  rfl

/-- Until the hand over only removed outputs go. -/
theorem outlives_handedOver {sys : System} {output : Output} (h : output ∈ sys.bridge.outputs) :
    Outlives output (handedOver sys).bridge := by
  intro hlive
  let started := sys.onBridge fun s => { s with phase := .manage }
  have hpublished : (publishLock started).bridge.outputs = sys.bridge.outputs := by
    unfold publishLock
    split <;> rfl
  have hupdated : output.id ∈ outputIds (updateLifecycle (publishLock started)).bridge :=
    outlives_updateLifecycle (hpublished ▸ h) hlive
  have hbefore : Remain (updateLifecycle (publishLock started)).bridge (beforeQueue sys).bridge := by
    have hcancelled : Remain (updateLifecycle (publishLock started)).bridge
        (cancelOperation (updateLifecycle (publishLock started))).bridge :=
      Remain.fields (by rw [bridge_cancelOperation])
    exact hcancelled.trans (Remain.of_quiet (quiet_override false _))
  have hafter : Remain (beforeQueue sys).bridge (handedOver sys).bridge :=
    Remain.fields ((outputs_publishDrag _).trans (outputs_drainInput _))
  exact hafter (hbefore hupdated)

/-- A creation appends its record. -/
theorem remain_listen (cb : Callback) (s : State) : Remain s (listen cb s) := by
  have hnew : (newId s).2.outputs = s.outputs := by
    rcases newId_cases s with h | h <;> rw [h]
    rfl
  have houtput : Remain s { (newId s).2 with
      outputs := (newId s).2.outputs ++ [{ id := (newId s).1 }] } := by
    unfold Remain outputIds
    rw [hnew, List.map_append]
    exact List.subset_append_left _ _
  have hseat : Remain s { (newId s).2 with
      seats := (newId s).2.seats ++ [{ id := (newId s).1 }]
      primary := if (newId s).2.primary = none then some (newId s).1
        else (newId s).2.primary } := Remain.fields hnew
  exact listen_induction (Remain.fields hnew)
    (houtput.trans (Remain.of_quiet (quiet_attachLayerOutput _ _)))
    (hseat.trans (Remain.of_quiet (quiet_attachLayerSeat _ _)))
    (fun _ hquiet => Remain.of_quiet hquiet) cb

/-- After a render callback the outputs remain. -/
theorem remain_managerRenderStart (sys : System) :
    Remain sys.bridge (managerRenderStart sys).bridge := by
  rcases managerRenderStart_cases sys with ⟨-, heq⟩ | ⟨message, -, heq⟩ | ⟨-, heq⟩ <;> rw [heq]
  · exact Remain.fields rfl
  · exact Remain.fields rfl
  · have hidle : Remain sys.bridge { sys.bridge with phase := .idle } := Remain.fields rfl
    exact hidle.trans (Remain.of_quiet (quiet_runRender sys))

/-- The removed outputs have been destroyed in a manage sequence. -/
def Desk.outputsDestroyed (d : Desk) : Desk :=
  { d with system := dropOutputs (publishLock (d.system.onBridge fun s =>
    { s with phase := .manage })) }

/-- No manage sequence destroys the output of an active overlay. -/
def Desk.KeepsPlace (d : Desk) (st : Desk.Step) : Prop :=
  st = .callback .managerManageStart → Starts d.system.bridge → d.picker.active = true →
    ∀ output ∈ d.system.bridge.outputs, d.picker.overlay.output = some output.id →
      output.removed = false

/-- An active overlay that keeps its place keeps its output. -/
theorem Desk.Placed.kept {d : Desk} {s : State} (h : d.Placed)
    (hkeeps : d.KeepsPlace (.callback .managerManageStart)) (hstarts : Starts d.system.bridge)
    (houtlives : ∀ output ∈ d.system.bridge.outputs, Outlives output s) :
    OnOutput d.picker s := fun hactive => by
  obtain ⟨id, hid, houtput⟩ := h hactive
  obtain ⟨output, hmem, rfl⟩ := List.mem_map.mp hid
  exact ⟨output.id, houtlives output hmem (hkeeps rfl hstarts hactive output hmem houtput), houtput⟩

/-- A manage callback that keeps the picker's place keeps it placed. -/
theorem Desk.Placed.managerManageStart {d : Desk} (h : d.Placed)
    (hkeeps : d.KeepsPlace (.callback .managerManageStart)) : d.managerManageStart.Placed := by
  unfold Desk.managerManageStart
  simp only
  split
  · next hstarts =>
    refine h.onSystem ?_
    unfold Bridge.managerManageStart
    simp only
    split
    · exact Remain.fields rfl
    · split
      · exact Remain.fields rfl
      · split
        · exact Remain.fields rfl
        · next hfailed hordered hxkb =>
          exact absurd hstarts (by tauto)
  · next hstarts =>
    simp only [not_or, ne_eq, Decidable.not_not, Bool.not_eq_true, Bool.not_eq_false'] at hstarts
    have hshown : OnOutput d.picker (handedOver d.system).bridge :=
      h.kept hkeeps hstarts fun output hmem => outlives_handedOver hmem
    exact (onSystem_of_onOutput hshown).finishManage

/-- So does every step of the desk. -/
theorem Desk.Placed.step {d : Desk} (h : d.Placed) {st : Desk.Step} (hkeeps : d.KeepsPlace st) :
    (d.step st).Placed := by
  cases st with
  | call c => exact h.call c
  | callback cb =>
      cases cb with
      | managerManageStart => exact h.managerManageStart hkeeps
      | managerRenderStart => exact h.onSystem (remain_managerRenderStart d.system)
      | managerFinished =>
          exact Desk.Placed.call (h.onSystem (remain_listen .managerFinished d.system.bridge)) .finished
      | _ => exact h.onSystem (remain_listen _ d.system.bridge)

/-! ## Runs of the desk -/

theorem outputs_outputsDestroyed (d : Desk) : d.outputsDestroyed.system.bridge.outputs
    = d.system.bridge.outputs.filter fun output => !output.removed := by
  have hpublished : (publishLock (d.system.onBridge fun s =>
      { s with phase := .manage })).bridge.outputs = d.system.bridge.outputs := by
    unfold publishLock
    split <;> rfl
  rw [← hpublished]
  rfl

/-- Where the picker keeps its place, its output is not among those destroyed. -/
theorem Desk.Placed.outputsDestroyed {d : Desk} (h : d.Placed)
    (hkeeps : d.KeepsPlace (.callback .managerManageStart)) (hstarts : Starts d.system.bridge) :
    d.outputsDestroyed.Placed := by
  refine h.kept hkeeps hstarts fun output hmem hlive => ?_
  unfold outputIds
  rw [outputs_outputsDestroyed]
  exact List.mem_map_of_mem (List.mem_filter.mpr ⟨hmem, by rw [hlive]; rfl⟩)

/-- The output of an overlay that is still placed has not been removed. -/
theorem live_of_outputsDestroyed {d : Desk} (hledger : Ledger d.system.bridge)
    (h : d.outputsDestroyed.Placed) (hactive : d.picker.active = true) {output : Output}
    (hmem : output ∈ d.system.bridge.outputs) (hid : d.picker.overlay.output = some output.id) :
    output.removed = false := by
  obtain ⟨id, hkept, houtput⟩ := h hactive
  obtain rfl : output.id = id := Option.some.inj (hid.symm.trans houtput)
  unfold outputIds at hkept
  rw [outputs_outputsDestroyed] at hkept
  obtain ⟨output', hfiltered, hsame⟩ := List.mem_map.mp hkept
  obtain ⟨hmem', hlive⟩ := List.mem_filter.mp hfiltered
  obtain rfl : output' = output := eq_of_numbered hledger.outputs hmem' hmem hsame
  simpa using hlive

/-- A run whose steps keep the picker's place keeps it placed. -/
theorem placed_runDesk {start : Desk} (hstart : start.Placed) (steps : List Desk.Step)
    (hkeeps : ∀ earlier st later, steps = earlier ++ st :: later →
      (runDesk earlier start).KeepsPlace st) : (runDesk steps start).Placed := by
  induction steps using List.reverseRecOn with
  | nil => exact hstart
  | append_singleton earlier st ih =>
      have hearlier := ih fun before st' after heq =>
        hkeeps before st' (after ++ [st]) (by rw [heq, List.append_assoc, List.cons_append])
      have hrun : runDesk (earlier ++ [st]) start = (runDesk earlier start).step st :=
        List.foldl_concat _ _ _ _
      rw [hrun]
      exact hearlier.step (hkeeps earlier st [] rfl)

end XmonadWayland.Bridge

namespace XmonadWayland

open Bridge

/-- **The output of the picker**: in every run an active overlay is on an output of the
bridge, between the steps and when a manage sequence has destroyed the removed outputs,
exactly if no manage sequence runs while the overlay is on a removed output. -/
theorem overlay_placed_iff {cfg : Config} (hcfg : validateConfig cfg = .ok ())
    (loads : List (Option Config)) (decode : List UInt8 → String) (creations : List Creation)
    (steps : List Desk.Step) :
    let start := initialDesk cfg loads decode creations
    (∀ earlier later, steps = earlier ++ later → (runDesk earlier start).Placed
        ∧ ∀ rest, later = .callback .managerManageStart :: rest →
          Starts (runDesk earlier start).system.bridge →
            (runDesk earlier start).outputsDestroyed.Placed)
      ↔ ∀ earlier st later, steps = earlier ++ st :: later →
        (runDesk earlier start).KeepsPlace st := by
  intro start
  constructor
  · intro hplaced earlier st later hsteps hst hstarts hactive output hmem hid
    have hagrees : Agreement (runDesk earlier start).system := by
      rw [system_runDesk]
      exact agreement_runSystem (agreement_initial hcfg loads decode) _
    have hdestroyed := (hplaced earlier (st :: later) hsteps).2 later (by rw [hst]) hstarts
    exact live_of_outputsDestroyed (hagrees.ledger hstarts.1) hdestroyed hactive hmem hid
  · intro hkeeps earlier later hsteps
    have hstart : start.Placed := fun hactive => absurd hactive Bool.false_ne_true
    have hearlier : (runDesk earlier start).Placed := placed_runDesk hstart earlier
      fun before st after heq => hkeeps before st (after ++ later)
        (by rw [hsteps, heq, List.append_assoc, List.cons_append])
    refine ⟨hearlier, fun rest hlater hstarts => ?_⟩
    exact hearlier.outputsDestroyed (hkeeps earlier _ rest (by rw [hsteps, hlater])) hstarts

/-- An overlay on the first output, and what follows. -/
def overlaySteps (rest : List Desk.Step) : List Desk.Step :=
  [.callback .registryXkb, .callback .managerOutput, .callback (.outputPosition 1 0 0),
    .callback (.outputDimensions 1 800 600), .callback .managerManageStart,
    .callback .managerRenderStart, .call (.bindCompositor true), .call (.bindShm true),
    .call (.bindWlrLayerShell true), .call (.pickerShow 1 .created)] ++ rest

/-- An overlay that is hidden before its output is removed is always placed. -/
theorem overlay_placed_hidden :
    (runDesk (overlaySteps [.callback .managerManageStart, .callback .managerRenderStart,
        .call .pickerHide, .callback (.outputRemoved 1), .callback .managerManageStart])
      (initialDesk defaultConfig [] (fun _ => "") [])).Placed := by
  let steps := overlaySteps [.callback .managerManageStart, .callback .managerRenderStart,
    .call .pickerHide, .callback (.outputRemoved 1), .callback .managerManageStart]
  have hlive : ∀ n < 15, (runDesk (steps.take n)
        (initialDesk defaultConfig [] (fun _ => "") [])).picker.active = true →
      ∀ output ∈ (runDesk (steps.take n)
        (initialDesk defaultConfig [] (fun _ => "") [])).system.bridge.outputs,
      output.removed = false := by decide +kernel
  refine (((overlay_placed_iff validateConfig_defaultConfig [] (fun _ => "") [] steps).mpr
    fun earlier st later hsteps _ _ hactive output hmem _ => ?_) steps [] (by simp)).1
  have hlength := congrArg List.length hsteps
  rw [List.length_append, List.length_cons] at hlength
  have htaken : steps.take earlier.length = earlier := by rw [hsteps, List.take_left]
  have hlt : earlier.length < 15 := by
    have hsteps15 : steps.length = 15 := rfl
    omega
  have houtputs := hlive earlier.length hlt
  rw [htaken] at houtputs
  exact houtputs hactive output hmem

/-- The overlay survives its output. -/
theorem overlay_survives_output :
    ¬(runDesk (overlaySteps [.callback (.outputRemoved 1), .callback .managerManageStart])
      (initialDesk defaultConfig [] (fun _ => "") [])).Placed := by
  unfold Desk.Placed OnOutput
  decide +kernel

end XmonadWayland
