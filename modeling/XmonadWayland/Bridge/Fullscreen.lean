import XmonadWayland.Bridge.Grab
import XmonadWayland.Base.Monitor

/-!
# XmonadWayland.Bridge.Fullscreen

Fullscreen over many manage passes.  A pass places each live window once, first its mode and
then its geometry.  Of a window the setters keep whether it was sent fullscreen and whether
leaving that still owes it a position (`Standing`); the requests of a pass and the standing
after it follow from the standing before, whatever the outputs are.
-/

namespace XmonadWayland.Bridge

/-! ## What the compositor was told -/

def fullscreenTold (i : Nat) : Request → Option Bool
  | .fullscreen window _ => if window = i then some true else none
  | .exitFullscreen window => if window = i then some false else none
  | _ => none

/-- The last of the requests that make window `i` fullscreen or end that made it so. -/
def inFullscreen (i : Nat) (requests : List Request) : Bool :=
  (requests.filterMap (fullscreenTold i)).getLast?.getD false

/-- What a request needs of those before it. -/
def allowedAfter (i : Nat) (before : List Request) : Request → Prop
  | .exitFullscreen window => window = i → inFullscreen i before = true
  | .informNotFullscreen window => window = i →
      ∃ earlier, before = earlier ++ [.exitFullscreen i] ∧ inFullscreen i earlier = true
  | .proposeDimensions window _ _ => window = i → inFullscreen i before = false
  | _ => True

/-- Requests about the fullscreen state of window `i`, and proposals to it. -/
def Request.concerns (i : Nat) : Request → Bool
  | .fullscreen window _ => window = i
  | .informFullscreen window => window = i
  | .exitFullscreen window => window = i
  | .informNotFullscreen window => window = i
  | .proposeDimensions window _ _ => window = i
  | _ => false

/-- The last request decides when it is about fullscreen. -/
theorem inFullscreen_concat (i : Nat) (requests : List Request) (r : Request) :
    inFullscreen i (requests ++ [r]) = (fullscreenTold i r).getD (inFullscreen i requests) := by
  rw [inFullscreen, inFullscreen, List.filterMap_append]
  cases h : fullscreenTold i r <;> simp [h]

/-- A request about other things says nothing of fullscreen. -/
theorem fullscreenTold_of_free {i : Nat} {r : Request} (h : r.concerns i = false) :
    fullscreenTold i r = none := by
  cases r with
  | fullscreen window output => exact if_neg (of_decide_eq_false h)
  | exitFullscreen window => exact if_neg (of_decide_eq_false h)
  | _ => rfl

/-- Requests about other things leave the fullscreen state. -/
theorem inFullscreen_append_free (i : Nat) (requests : List Request) {extra : List Request}
    (h : ∀ r ∈ extra, r.concerns i = false) :
    inFullscreen i (requests ++ extra) = inFullscreen i requests := by
  have hnone : extra.filterMap (fullscreenTold i) = [] :=
    List.filterMap_eq_nil_iff.mpr fun r hr => fullscreenTold_of_free (h r hr)
  rw [inFullscreen, List.filterMap_append, hnone, List.append_nil, inFullscreen]

/-- A request about other things is always allowed. -/
theorem allowedAfter_of_free {i : Nat} {r : Request} (h : r.concerns i = false)
    (before : List Request) : allowedAfter i before r := by
  cases r <;> simp_all [allowedAfter, Request.concerns]

/-! ## The two setters -/

/-- The arguments of `xw_set_mode` and `xw_set_window` for a window. -/
structure Placing where
  id : Nat
  outputId : Nat
  floating : Bool
  fullscreen : Bool
  visible : Bool
  x : Int
  y : Int
  width : Int
  height : Int
  focused : Bool

def Placing.run (c : Placing) (s : State) : State :=
  xwSetWindow c.id c.visible c.x c.y c.width c.height c.focused
    (xwSetMode c.id c.outputId c.floating c.fullscreen s)

/-- What the setters keep of a window: it was sent fullscreen, and it still needs its position
back from the last time it left. -/
structure Standing where
  fullscreen : Bool
  owed : Bool

def Window.standing (w : Window) : Standing := ⟨w.fullscreenOutput ≠ 0, w.exitedFullscreen⟩

/-- A state in which the setters work. -/
structure Placeable (s : State) : Prop where
  manage : s.phase = .manage
  ok : s.failed = false
  outputs : ∀ output ∈ s.outputs, output.id ≠ 0

/-- The setters of other windows: nothing about window `i`. -/
structure Elsewhere (i : Nat) (s s' : State) : Prop where
  placeable : Placeable s → Placeable s'
  window : findWindow i s' = findWindow i s
  records : ∀ w ∈ s'.windows, w.id = i → w ∈ s.windows
  requests : ∃ extra, s'.requests = s.requests ++ extra ∧ ∀ r ∈ extra, r.concerns i = false

namespace Elsewhere

variable {i : Nat} {s s' s'' : State}

theorem refl (i : Nat) (s : State) : Elsewhere i s s :=
  ⟨fun h => h, rfl, fun _ h _ => h, [], (List.append_nil _).symm, nofun⟩

theorem trans (h : Elsewhere i s s') (h' : Elsewhere i s' s'') : Elsewhere i s s'' := by
  obtain ⟨extra, heq, hfree⟩ := h.requests
  obtain ⟨extra', heq', hfree'⟩ := h'.requests
  exact ⟨fun hp => h'.placeable (h.placeable hp), h'.window.trans h.window,
    fun w hw hid => h.records w (h'.records w hw hid) hid, extra ++ extra',
    by rw [heq', heq, List.append_assoc],
    fun r hr => (List.mem_append.mp hr).elim (hfree r) (hfree' r)⟩

end Elsewhere

section Modify

variable {f : Window → Window} (hf : ∀ w, (f w).id = w.id ∧ (f w).closed = w.closed)
include hf

/-- Changing a window changes the one that is found, and no other. -/
theorem findWindow_modifyWindow (id id' : Nat) (s : State) :
    findWindow id (modifyWindow id' f s)
      = (findWindow id s).map fun w => if w.id = id' then f w else w := by
  rw [findWindow, findWindow, modifyWindow, List.find?_map]
  congr 2
  funext w
  simp only [Function.comp_apply]
  split
  · rw [(hf w).1, (hf w).2]
  · rfl

/-- Telling another window is a change elsewhere. -/
theorem elsewhere_tellWindow {i id : Nat} (hne : id ≠ i) (s : State) {requests : List Request}
    (hfree : ∀ r ∈ requests, r.concerns i = false) :
    Elsewhere i s (send requests (modifyWindow id f s)) := by
  refine ⟨fun h => ⟨h.manage, h.ok, h.outputs⟩, ?_, fun w' hw' hid => ?_, requests, rfl, hfree⟩
  · refine (findWindow_modifyWindow hf i id s).trans ?_
    cases hw : findWindow i s with
    | none => rfl
    | some w =>
        have hid := (findWindow_some hw).2.1
        rw [Option.map_some, if_neg (fun heq => hne (heq.symm.trans hid))]
  · obtain ⟨w, hw, rfl⟩ := List.mem_map.mp hw'
    split at hid
    · next heq => exact absurd (heq.symm.trans ((hf w).1.symm.trans hid)) hne
    · next heq => simpa [heq] using hw

end Modify

/-- The setters of window `i` turn `w` into `w'`. -/
structure Sets (i : Nat) (w w' : Window) (s s' : State) (sent : List Request) : Prop where
  placeable : Placeable s'
  window : findWindow i s' = some w'
  node : w'.node = w.node
  requests : s'.requests = s.requests ++ sent

theorem Sets.refl {i : Nat} {s : State} {w : Window} (hs : Placeable s)
    (hw : findWindow i s = some w) : Sets i w w s s [] :=
  ⟨hs, hw, rfl, (List.append_nil _).symm⟩

theorem Sets.trans {i : Nat} {s s' s'' : State} {w w' w'' : Window} {sent sent' : List Request}
    (h : Sets i w w' s s' sent) (h' : Sets i w' w'' s' s'' sent') :
    Sets i w w'' s s'' (sent ++ sent') :=
  ⟨h'.placeable, h'.window, h'.node.trans h.node,
    by rw [h'.requests, h.requests, List.append_assoc]⟩

/-- Telling the window rewrites its record as said. -/
theorem sets_tellWindow {i : Nat} (f : Window → Window)
    (hf : ∀ w, (f w).id = w.id ∧ (f w).closed = w.closed ∧ (f w).node = w.node) {s : State}
    {w : Window} (hs : Placeable s) (hw : findWindow i s = some w) (requests : List Request) :
    Sets i w (f w) s (send requests (modifyWindow i f s)) requests := by
  refine ⟨⟨hs.manage, hs.ok, hs.outputs⟩, ?_, (hf w).2.2, rfl⟩
  refine (findWindow_modifyWindow (fun w => ⟨(hf w).1, (hf w).2.1⟩) i i s).trans ?_
  rw [hw, Option.map_some, if_pos (findWindow_some hw).2.1]

/-- What `xw_set_mode` sends about fullscreen, and the standing it leaves. -/
inductive ModeStep (i : Nat) : Standing → List Request → Standing → Prop
  | enters {st : Standing} (output : Nat) :
      ModeStep i st [.fullscreen i output, .informFullscreen i] ⟨true, st.owed⟩
  | stays {st : Standing} : ModeStep i st [] st
  | leaves {st : Standing} : st.fullscreen = true →
      ModeStep i st [.exitFullscreen i, .informNotFullscreen i] ⟨false, true⟩

/-- What `xw_set_window` sends, and the standing it leaves. -/
inductive ShowStep (i : Nat) (visible : Bool) : Standing → List Request → Standing → Prop
  | hides {st : Standing} : visible = false ∨ st.fullscreen = true → ShowStep i visible st [] st
  | shows (width height : Int) : visible = true →
      ShowStep i visible ⟨false, false⟩ [.proposeDimensions i width height] ⟨false, false⟩
  | restores (width height x y : Int) : visible = true →
      ShowStep i visible ⟨false, true⟩ [.proposeDimensions i width height, .setPosition i x y]
        ⟨false, false⟩

/-- Applying fullscreen rewrites the window's record with its requests. -/
theorem sets_applyFullscreen {i : Nat} {s : State} {w v : Window} (hs : Placeable s)
    (hw : findWindow i s = some w) (hv : v.id = i ∧ v.fullscreenOutput = w.fullscreenOutput)
    (outputId : Nat) (fullscreen : Bool) : ∃ w' sent,
    Sets i w w' s (applyFullscreen v outputId fullscreen s) sent
      ∧ ModeStep i w.standing sent w'.standing := by
  obtain ⟨hid, hsame⟩ := hv
  unfold applyFullscreen
  simp only [hid, hsame]
  split
  · split
    · next hfull =>
      refine ⟨_, _, sets_tellWindow (fun w => { w with fullscreenOutput := 0, exitedFullscreen := true })
        (fun _ => ⟨rfl, rfl, rfl⟩) hs hw _, ?_⟩
      exact .leaves (by simpa [Window.standing] using hfull)
    · exact ⟨w, [], .refl hs hw, .stays⟩
  · next hgo =>
    split
    · -- A live output has a number, so the record tells that the window is fullscreen.
      have hpos : outputId ≠ 0 := by
        simp only [Bool.or_eq_true, Bool.not_eq_true', not_or, Bool.not_eq_false, List.any_eq_true,
          Bool.and_eq_true, decide_eq_true_eq] at hgo
        obtain ⟨-, output, hmem, hnumber, -⟩ := hgo
        exact hnumber ▸ hs.outputs output hmem
      have hstanding : Window.standing { w with fullscreenOutput := outputId }
          = ⟨true, w.standing.owed⟩ := by
        simp [Window.standing, hpos]
      refine ⟨_, _, sets_tellWindow (fun w => { w with fullscreenOutput := outputId })
        (fun _ => ⟨rfl, rfl, rfl⟩) hs hw _, ?_⟩
      rw [hstanding]
      exact .enters outputId
    · exact ⟨w, [], .refl hs hw, .stays⟩

/-- Where windows may be placed the phase check passes. -/
theorem requireManage_eq {s : State} (hs : Placeable s) (f : State → State) :
    requireManage f s = f s := by
  simp [requireManage, hs.ok, hs.manage]

/-- Setting the mode rewrites the window's record with its requests. -/
theorem sets_xwSetMode {i : Nat} {s : State} {w : Window} (hs : Placeable s)
    (hw : findWindow i s = some w) (outputId : Nat) (floating fullscreen : Bool) :
    ∃ w' sent, Sets i w w' s (xwSetMode i outputId floating fullscreen s)
        (.setTiled i (if floating then 0 else 15) :: sent)
      ∧ ModeStep i w.standing sent w'.standing := by
  have hid := (findWindow_some hw).2.1
  have htiled := sets_tellWindow (fun w => { w with floating := floating })
    (fun _ => ⟨rfl, rfl, rfl⟩) hs hw [.setTiled i (if floating then 0 else 15)]
  obtain ⟨w', sent, hsets, hstep⟩ :=
    sets_applyFullscreen htiled.placeable htiled.window ⟨hid, rfl⟩ outputId fullscreen
  refine ⟨w', sent, ?_, hstep⟩
  have heq : xwSetMode i outputId floating fullscreen s = applyFullscreen w outputId fullscreen
      (send [.setTiled i (if floating then 0 else 15)]
        (modifyWindow i (fun w => { w with floating := floating }) s)) := by
    rw [xwSetMode, requireManage_eq hs, hw]
    simp only [hid]
  rw [heq]
  exact htiled.trans hsets

/-- A restored window stands where it stood, no longer minimised. -/
theorem standing_restored {w : Window} (h : w.restores = true) :
    w.restored.standing = ⟨w.standing.fullscreen, false⟩ := by
  rw [Window.restored, if_pos h]
  rfl

/-- A window that restores nothing is left as it is. -/
theorem restored_self {w : Window} (h : w.restores = false) : w.restored = w := by
  simp [Window.restored, h]

/-- What is sent about a window that has its new geometry. -/
theorem showStep_placed (i : Nat) {w : Window} (hnode : w.node = true) :
    ShowStep i w.visible w.standing
      ((if w.proposes then [.proposeDimensions i w.width w.height] else [])
        ++ if w.restores then [.setPosition i w.x w.y] else []) w.restored.standing := by
  cases hproposes : w.proposes with
  | false =>
      have hrestores : w.restores = false := by simp [Window.restores, hproposes]
      rw [restored_self hrestores, hrestores]
      refine .hides ?_
      simp only [Window.proposes, Bool.and_eq_false_iff, decide_eq_false_iff_not] at hproposes
      simpa [Window.standing] using hproposes
  | true =>
      obtain ⟨hvisible, hleft⟩ : w.visible = true ∧ w.fullscreenOutput = 0 := by
        simpa [Window.proposes] using hproposes
      have hstanding : w.standing = ⟨false, w.exitedFullscreen⟩ := by simp [Window.standing, hleft]
      cases howed : w.exitedFullscreen with
      | false =>
          have hrestores : w.restores = false := by simp [Window.restores, howed]
          rw [restored_self hrestores, hrestores, hstanding, howed]
          exact .shows _ _ hvisible
      | true =>
          have hrestores : w.restores = true := by simp [Window.restores, hproposes, howed, hnode]
          rw [standing_restored hrestores, hrestores, hstanding, howed]
          exact .restores _ _ _ _ hvisible

/-- Placing the window rewrites its record with its requests. -/
theorem sets_xwSetWindow {i : Nat} {s : State} {w : Window} (hs : Placeable s)
    (hw : findWindow i s = some w) (hnode : w.node = true) (visible : Bool)
    (x y width height : Int) (focused : Bool) : ∃ w' sent,
    Sets i w w' s (xwSetWindow i visible x y width height focused s) sent
      ∧ w'.visible = visible ∧ ShowStep i visible w.standing sent w'.standing := by
  rw [xwSetWindow, requireManage_eq hs, hw]
  simp only
  generalize hplaced : Window.placed visible x y width height (focused && !layerHasFocus s) = place
  have hkeep : ∀ v : Window, (place v).id = v.id ∧ (place v).closed = v.closed
      ∧ (place v).node = v.node ∧ (place v).visible = visible ∧ (place v).standing = v.standing := by
    intro v
    rw [← hplaced]
    exact ⟨rfl, rfl, rfl, rfl, rfl⟩
  obtain ⟨-, -, hnode', hvisible, hstanding⟩ := hkeep w
  refine ⟨_, _, sets_tellWindow (fun w => (place w).restored) (fun v => ?_) hs hw _, ?_, ?_⟩
  · obtain ⟨hid, hclosed, hnode, -, -⟩ := hkeep v
    unfold Window.restored
    split <;> exact ⟨hid, hclosed, hnode⟩
  · unfold Window.restored
    split <;> exact hvisible
  · rw [← hstanding, ← hvisible]
    exact showStep_placed i (hnode'.trans hnode)

/-! ## What the steps mean -/

section Told

variable {i : Nat} {log : List Request}

/-- A mode is told in step with the record. -/
theorem told_modeStep {st st' : Standing} {mode : List Request}
    (hlog : Justified (allowedAfter i) log) (htold : inFullscreen i log = st.fullscreen)
    (h : ModeStep i st mode st') :
    Justified (allowedAfter i) (log ++ mode) ∧ inFullscreen i (log ++ mode) = st'.fullscreen := by
  cases h with
  | enters output =>
      refine ⟨hlog.append_free ?_, ?_⟩
      · simp [allowedAfter]
      · rw [List.append_cons, inFullscreen_concat, inFullscreen_concat]
        simp [fullscreenTold]
  | stays => simpa using ⟨hlog, htold⟩
  | leaves hfull =>
      have hexit : allowedAfter i log (.exitFullscreen i) := fun _ => htold.trans hfull
      have hinform : allowedAfter i (log ++ [.exitFullscreen i]) (.informNotFullscreen i) :=
        fun _ => ⟨log, rfl, htold.trans hfull⟩
      refine ⟨?_, ?_⟩
      · rw [List.append_cons]
        exact (hlog.concat hexit).concat hinform
      · rw [List.append_cons, inFullscreen_concat, inFullscreen_concat]
        simp [fullscreenTold]

/-- Dimensions are proposed to a window that is not fullscreen. -/
theorem told_showStep {st st' : Standing} {visible : Bool} {show' : List Request}
    (hlog : Justified (allowedAfter i) log) (htold : inFullscreen i log = st.fullscreen)
    (h : ShowStep i visible st show' st') :
    Justified (allowedAfter i) (log ++ show') ∧ inFullscreen i (log ++ show') = st'.fullscreen := by
  cases h with
  | hides _ => simpa using ⟨hlog, htold⟩
  | shows width height _ =>
      have hpropose : allowedAfter i log (.proposeDimensions i width height) := fun _ => htold
      refine ⟨hlog.concat hpropose, ?_⟩
      rw [inFullscreen_concat, htold]
      rfl
  | restores width height x y _ =>
      have hpropose : allowedAfter i log (.proposeDimensions i width height) := fun _ => htold
      refine ⟨?_, ?_⟩
      · rw [List.append_cons]
        exact (hlog.concat hpropose).concat trivial
      · rw [List.append_cons, inFullscreen_concat, inFullscreen_concat, htold]
        rfl

end Told

/-! ## The setters of other windows -/

/-- The phase check keeps a change elsewhere. -/
theorem elsewhere_requireManage {i : Nat} {f : State → State} (hf : ∀ t, Elsewhere i t (f t)) (s : State) :
    Elsewhere i s (requireManage f s) := by
  unfold requireManage
  split
  · exact .refl i s
  · split
    · next hphase =>
      exact ⟨fun h => absurd h.manage hphase, rfl, fun _ h _ => h, [], (List.append_nil _).symm, nofun⟩
    · exact hf s

/-- Applying fullscreen to another window is a change elsewhere. -/
theorem elsewhere_applyFullscreen {i : Nat} {w : Window} (hid : w.id ≠ i) (outputId : Nat)
    (fullscreen : Bool) (s : State) : Elsewhere i s (applyFullscreen w outputId fullscreen s) := by
  unfold applyFullscreen
  simp only
  split
  · split
    · refine elsewhere_tellWindow ?_ hid s ?_
      · exact fun _ => ⟨rfl, rfl⟩
      · simp [Request.concerns, hid]
    · exact .refl i s
  · split
    · refine elsewhere_tellWindow ?_ hid s ?_
      · exact fun _ => ⟨rfl, rfl⟩
      · simp [Request.concerns, hid]
    · exact .refl i s

section Others

variable {i id : Nat} (hne : id ≠ i)
include hne

/-- So is placing another window. -/
theorem elsewhere_xwSetWindow (visible : Bool) (x y width height : Int) (focused : Bool) (s : State) :
    Elsewhere i s (xwSetWindow id visible x y width height focused s) := by
  refine elsewhere_requireManage (fun t => ?_) s
  split
  · exact .refl i t
  · refine elsewhere_tellWindow (fun w => ?_) hne t ?_
    · unfold Window.restored
      split <;> exact ⟨rfl, rfl⟩
    · intro r hr
      rcases List.mem_append.mp hr with hr | hr <;> split at hr <;>
        simp_all [Request.concerns]

/-- So is setting another window's mode. -/
theorem elsewhere_xwSetMode (outputId : Nat) (floating fullscreen : Bool) (s : State) :
    Elsewhere i s (xwSetMode id outputId floating fullscreen s) := by
  refine elsewhere_requireManage (fun t => ?_) s
  split
  · exact .refl i t
  · next w hw =>
    have hid : w.id ≠ i := (findWindow_some hw).2.1.symm ▸ hne
    refine Elsewhere.trans ?_ (elsewhere_applyFullscreen hid outputId fullscreen _)
    refine elsewhere_tellWindow ?_ hid t ?_
    · exact fun _ => ⟨rfl, rfl⟩
    · simp [Request.concerns]

end Others

/-- So is another window's placing call. -/
theorem Placing.elsewhere {i : Nat} {c : Placing} (hne : c.id ≠ i) (s : State) :
    Elsewhere i s (c.run s) :=
  (elsewhere_xwSetMode hne _ _ _ s).trans (elsewhere_xwSetWindow hne _ _ _ _ _ _ _)

/-! ## Passes -/

/-- The calls of a manage pass, in order. -/
def placeAll (calls : List Placing) (s : State) : State := calls.foldl (fun s c => c.run s) s

/-- Window `i` is visible and not fullscreen. -/
def Shown (i : Nat) (s : State) : Prop :=
  ∃ w, findWindow i s = some w ∧ w.visible = true ∧ w.fullscreenOutput = 0

/-- What a pass sends about the window `w` of id `i` and what it makes of it. -/
structure PassStep (i : Nat) (w w' : Window) (s s' : State) : Prop where
  window : findWindow i s' = some w'
  node : w'.node = w.node
  steps : ∃ before mode show' after : List Request, ∃ middle,
    s'.requests = s.requests ++ (before ++ mode ++ show' ++ after)
      ∧ (∀ r ∈ before, r.concerns i = false) ∧ (∀ r ∈ after, r.concerns i = false)
      ∧ ModeStep i w.standing mode middle ∧ ShowStep i w'.visible middle show' w'.standing

/-- Dimensions and a position for window `i`. -/
def Restores (i : Nat) (sent : List Request) : Prop :=
  (∃ width height, .proposeDimensions i width height ∈ sent) ∧ ∃ x y, .setPosition i x y ∈ sent

/-- Among more requests the restoring one is still there. -/
theorem Restores.mono {i : Nat} {sent sent' : List Request} (h : Restores i sent)
    (hsub : sent ⊆ sent') : Restores i sent' := by
  obtain ⟨⟨width, height, hproposed⟩, x, y, hset⟩ := h
  exact ⟨⟨width, height, hsub hproposed⟩, x, y, hsub hset⟩

namespace PassStep

variable {i : Nat} {w w' : Window} {s s' : State} (h : PassStep i w w' s s')
include h

/-- Told requests stay justified and in step with the record. -/
theorem told (hlog : Justified (allowedAfter i) s.requests)
    (htold : inFullscreen i s.requests = w.standing.fullscreen) :
    Justified (allowedAfter i) s'.requests
      ∧ inFullscreen i s'.requests = w'.standing.fullscreen := by
  obtain ⟨before, mode, show', after, middle, heq, hbefore, hafter, hmode, hshow⟩ := h.steps
  have hfree : ∀ {extra : List Request}, (∀ r ∈ extra, r.concerns i = false) →
      ∀ r ∈ extra, ∀ pre, allowedAfter i pre r := fun hextra r hr => allowedAfter_of_free (hextra r hr)
  have hmiddle := told_modeStep (hlog.append_free (hfree hbefore))
    ((inFullscreen_append_free i _ hbefore).trans htold) hmode
  have hshown := told_showStep hmiddle.1 hmiddle.2 hshow
  rw [heq, ← List.append_assoc, ← List.append_assoc, ← List.append_assoc]
  exact ⟨hshown.1.append_free (hfree hafter),
    (inFullscreen_append_free i _ hafter).trans hshown.2⟩

/-- A window that has left fullscreen now, or has not been restored since. -/
theorem restores_or_owed {sent : List Request} (hsent : s'.requests = s.requests ++ sent)
    (hdue : w.standing.owed = true ∨ .exitFullscreen i ∈ sent) :
    Restores i sent ∧ w'.visible = true ∧ w'.standing.fullscreen = false
      ∨ w'.standing.owed = true ∧ (w'.visible = true → w'.standing.fullscreen = true) := by
  obtain ⟨before, mode, show', after, middle, heq, hbefore, hafter, hmode, hshow⟩ := h.steps
  obtain rfl : sent = before ++ mode ++ show' ++ after :=
    List.append_cancel_left (hsent.symm.trans heq)
  generalize w'.standing = st at hshow ⊢
  have hfree : ∀ {extra : List Request}, (∀ r ∈ extra, r.concerns i = false) →
      .exitFullscreen i ∉ extra := fun hextra hmem => by simpa [Request.concerns] using hextra _ hmem
  have hnotShown : .exitFullscreen i ∉ show' := by
    cases hshow <;> simp
  have hexit : w.standing.owed = true ∨ .exitFullscreen i ∈ mode :=
    hdue.imp_right fun hmem => by simpa [hfree hbefore, hfree hafter, hnotShown] using hmem
  have howed : middle.owed = true := by
    cases hmode with
    | enters output => simpa using hexit
    | stays => simpa using hexit
    | leaves _ => rfl
  cases hshow with
  | hides hhidden =>
      exact Or.inr ⟨howed, fun hvisible => hhidden.resolve_left (by simp [hvisible])⟩
  | shows width height _ => contradiction
  | restores width height x y hvisible =>
      refine Or.inl ⟨⟨⟨width, height, ?_⟩, x, y, ?_⟩, hvisible, rfl⟩ <;> simp

end PassStep

/-- The calls of other windows. -/
theorem elsewhere_calls {i : Nat} {calls : List Placing} (h : i ∉ calls.map Placing.id) (s : State) :
    Elsewhere i s (placeAll calls s) := by
  refine List.foldlRecOn (motive := fun t => Elsewhere i s t) calls _ (.refl i s) fun t ht c hc => ?_
  exact ht.trans (Placing.elsewhere (fun heq => h (List.mem_map.mpr ⟨c, hc, heq⟩)) t)

/-- Both setters of window `i`. -/
theorem sets_run {c : Placing} {s : State} {w : Window} (hs : Placeable s)
    (hw : findWindow c.id s = some w) (hnode : w.node = true) :
    ∃ w' sent mode show' middle, Sets c.id w w' s (c.run s) sent
      ∧ sent = .setTiled c.id (if c.floating then 0 else 15) :: mode ++ show'
      ∧ ModeStep c.id w.standing mode middle
      ∧ ShowStep c.id w'.visible middle show' w'.standing := by
  obtain ⟨v, mode, hmode, hmodeStep⟩ := sets_xwSetMode hs hw c.outputId c.floating c.fullscreen
  obtain ⟨w', show', hshow, hvisible, hshowStep⟩ := sets_xwSetWindow hmode.placeable hmode.window
    (hmode.node.trans hnode) c.visible c.x c.y c.width c.height c.focused
  exact ⟨w', _, mode, show', _, hmode.trans hshow, rfl, hmodeStep, hvisible ▸ hshowStep⟩

/-- A pass that places window `i` once. -/
theorem passStep {i : Nat} {calls : List Placing} {s : State} {w : Window} (hs : Placeable s)
    (hw : findWindow i s = some w) (hnode : w.node = true)
    (honce : (calls.map Placing.id).count i = 1) : ∃ w', PassStep i w w' s (placeAll calls s) := by
  -- The calls of other windows before and after that of window `i`.
  obtain ⟨c, hc, rfl⟩ : ∃ c ∈ calls, c.id = i :=
    List.mem_map.mp (List.count_pos_iff.mp (honce ▸ Nat.one_pos))
  obtain ⟨first, last, rfl⟩ := List.append_of_mem hc
  rw [List.map_append, List.map_cons, List.count_append, List.count_cons_self] at honce
  have hbefore := elsewhere_calls (List.count_eq_zero.mp (by omega : (first.map Placing.id).count c.id = 0)) s
  obtain ⟨w', sent, mode, show', middle, hsets, rfl, hmode, hshow⟩ :=
    sets_run (hbefore.placeable hs) (hbefore.window.trans hw) hnode
  have hafter := elsewhere_calls (List.count_eq_zero.mp (by omega : (last.map Placing.id).count c.id = 0))
    (c.run (placeAll first s))
  have hall : placeAll (first ++ c :: last) s = placeAll last (c.run (placeAll first s)) := by
    rw [placeAll, List.foldl_append, List.foldl_cons]
    rfl
  rw [hall]
  obtain ⟨extra, heq, hfree⟩ := hbefore.requests
  obtain ⟨extra', heq', hfree'⟩ := hafter.requests
  refine ⟨w', hafter.window.trans hsets.window, hsets.node,
    extra ++ [.setTiled c.id (if c.floating then 0 else 15)], mode, show', extra', middle, ?_, ?_,
    hfree', hmode, hshow⟩
  · rw [heq', hsets.requests, heq]
    simp
  · intro r hr
    rcases List.mem_append.mp hr with hr | hr
    · exact hfree r hr
    · rw [List.mem_singleton.mp hr]
      rfl

end XmonadWayland.Bridge
