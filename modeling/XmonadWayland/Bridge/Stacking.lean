import XmonadWayland.Bridge.Manage
import XmonadWayland.Base.Raises
import XmonadWayland.Base.Links
import XmonadWayland.Base.Lists

/-!
# XmonadWayland.Bridge.Stacking

The order of the windows after a render sequence.  The sequence moves the tiles to the top,
then the focused tile, then the floating windows by their depth below floating parents, each
depth ended by the focused window.  Where parents form no cycle a window is one deeper than
its parent, so it is moved later.
-/

namespace XmonadWayland.Bridge

open Relation

/-! ## Depths -/

/-- The parent the depth of a window goes on from: alive and floating. -/
def floatingParent (s : State) (w : Window) : Option Window :=
  (findWindow w.parentId s).filter Window.floating

/-- The loop of `manager_render_start` that climbs to the parents, with the fuel it has left;
`none` if it does not end in time. -/
def ancestryLoop (s : State) (count : Nat) : Nat → Window → Nat → Option Nat
  | 0, _, _ => none
  | fuel + 1, w, depth => match findWindow w.parentId s with
    | some parent =>
      if parent.floating ∧ depth < count then ancestryLoop s count fuel parent (depth + 1)
      else some depth
    | none => some depth

/-- The depth counts the parent links followed. -/
theorem ancestryDepth_eq (s : State) (fuel : Nat) (w : Window) :
    ancestryDepth s fuel w = linkCount (floatingParent s) fuel w + 1 := by
  induction fuel generalizing w with
  | zero => rfl
  | succ fuel ih =>
      simp only [ancestryDepth, linkCount, floatingParent]
      cases hparent : findWindow w.parentId s with
      | none => rfl
      | some parent =>
          by_cases hfloat : parent.floating
          · simp only [hfloat, Option.filter_some, if_true, ih]
          · simp only [hfloat, Option.filter_some, if_false, Bool.false_eq_true]

/-- The climb ends after at most as many rounds as there are windows. -/
theorem ancestryLoop_eq (s : State) {count fuel depth : Nat} (w : Window) (hdepth : depth ≤ count)
    (hfuel : count < fuel + depth) : ancestryLoop s count fuel w depth
      = some (linkCount (floatingParent s) (count - depth) w + depth) := by
  induction fuel generalizing w depth with
  | zero => omega
  | succ fuel ih =>
      rw [ancestryLoop]
      cases hparent : findWindow w.parentId s with
      | none =>
          have hlink : floatingParent s w = none := by rw [floatingParent, hparent]; rfl
          cases count - depth <;> simp [linkCount, hlink]
      | some parent =>
          by_cases hfloat : parent.floating
          · have hlink : floatingParent s w = some parent := by
              rw [floatingParent, hparent, Option.filter_some, if_pos hfloat]
            by_cases hroom : depth < count
            · obtain ⟨n, hn⟩ := Nat.exists_eq_add_of_lt hroom
              have hn' : count - depth = n + 1 := by omega
              have hnext : count - (depth + 1) = n := by omega
              simp only [hfloat, hroom, and_self, if_true]
              rw [ih parent hroom (by omega), hn', hnext, linkCount, hlink]
              simp only [Option.some.injEq]
              omega
            · have hzero : count - depth = 0 := by omega
              simp [hroom, hzero, linkCount]
          · have hlink : floatingParent s w = none := by
              rw [floatingParent, hparent, Option.filter_some, if_neg hfloat]
            have hcount : linkCount (floatingParent s) (count - depth) w = 0 := by
              cases count - depth <;> simp [linkCount, hlink]
            simp [hfloat, hcount]

/-- A window is one deeper than its floating parent, whatever the bound on the climb, unless
its parents form a cycle. -/
theorem stackingDepth_parent {s : State} (hids : (s.windows.map Window.id).Nodup) {w parent : Window}
    (hw : w ∈ s.windows) (hacyclic : AcyclicFrom (floatingParent s) w)
    (hparent : floatingParent s w = some parent) :
    stackingDepth s w = stackingDepth s parent + 1 := by
  classical
  have hcard : s.windows.toFinset.card = s.windows.length :=
    List.toFinset_card_of_nodup (List.Nodup.of_map Window.id hids)
  have hnodes : ∀ x y, floatingParent s x = some y → y ∈ s.windows.toFinset := fun x y hxy =>
    List.mem_toFinset.mpr (List.mem_of_find?_eq_some (Option.filter_eq_some_iff.mp hxy).1)
  have hsucc := linkCount_succ hacyclic hnodes (List.mem_toFinset.mpr hw) hparent
  rw [hcard] at hsucc
  rw [stackingDepth, stackingDepth, ancestryDepth_eq, ancestryDepth_eq, hsucc]

/-- Every floating ancestor is less deep. -/
theorem stackingDepth_lt {s : State} (hids : (s.windows.map Window.id).Nodup) {w v : Window}
    (hw : w ∈ s.windows) (hacyclic : AcyclicFrom (floatingParent s) w)
    (h : TransGen (Links (floatingParent s)) w v) : stackingDepth s v < stackingDepth s w := by
  induction h using TransGen.head_induction_on with
  | single hlink =>
      have hdepth := stackingDepth_parent hids hw hacyclic hlink
      omega
  | head hlink _ ih =>
      have hdepth := stackingDepth_parent hids hw hacyclic hlink
      have hmem := List.mem_of_find?_eq_some (Option.filter_eq_some_iff.mp hlink).1
      have hless := ih hmem (hacyclic.tail hlink)
      omega

/-! ## What is moved to the top -/

/-- A window a render sequence shows. -/
def Window.shown (w : Window) : Bool := !w.closed && w.node && w.visible

/-- The windows moved to the top, in turn. -/
def placeTops (requests : List Request) : List Nat :=
  requests.filterMap fun
    | .placeTop id => some id
    | _ => none

section Moves

variable (s : State)

/-- The windows shown with the property `f`. -/
def shownIds (f : Window → Bool) : List Nat :=
  (s.windows.filter fun w => w.shown && f w).map Window.id

/-- The focused window, if it has the property `f`. -/
def focusedIds (f : Window → Bool) : List Nat := (((focusedRecord s).filter f).map Window.id).toList

/-- The floating windows of a depth, one less than counted by the source. -/
def atDepth (i : Nat) (w : Window) : Bool := w.floating && stackingDepth s w = i + 1

def maximumDepth : Nat := ((s.windows.filter Window.floating).map (stackingDepth s)).foldl max 0

/-- One round of the loop over the depths. -/
def round (i : Nat) : List Nat := shownIds s (atDepth s i) ++ focusedIds s (atDepth s i)

/-- The stacking of two request lists is one after the other. -/
theorem placeTops_append (l l' : List Request) : placeTops (l ++ l') = placeTops l ++ placeTops l' :=
  List.filterMap_append

theorem placeTops_flatMap {α : Type} (l : List α) (g : α → List Request) :
    placeTops (l.flatMap g) = l.flatMap fun x => placeTops (g x) := List.filterMap_flatMap

theorem placeTops_map (l : List Window) :
    placeTops (l.map fun w => .placeTop w.id) = l.map Window.id := by
  induction l with
  | nil => rfl
  | cons w l ih => exact congrArg (w.id :: ·) ih

/-- Showing the windows moves the tiles. -/
theorem placeTops_shows : placeTops ((renderable s).flatMap (showRequests s))
    = shownIds s fun w => !w.floating := by
  have hone : ∀ w, placeTops (showRequests s w)
      = if w.visible && !w.floating then [w.id] else [] := by
    intro w
    cases hvisible : w.visible <;> cases hfloat : w.floating <;>
      simp [showRequests, placeTops, hvisible, hfloat]
  have hfilter : ∀ l : List Window, (l.flatMap fun w => placeTops (showRequests s w))
      = (l.filter fun w => w.visible && !w.floating).map Window.id := by
    intro l
    induction l with
    | nil => rfl
    | cons w l ih =>
        rw [List.flatMap_cons, ih, hone, List.filter_cons]
        split <;> rfl
  rw [placeTops_flatMap, hfilter, renderable, List.filter_filter, shownIds]
  congr 2
  funext w
  simp only [Window.shown]
  grind

/-- The rest moves the focused tile and the floating windows. -/
theorem placeTops_stack : placeTops (stackRequests s)
    = focusedIds s (fun w => !w.floating) ++ (List.range (maximumDepth s)).flatMap (round s) := by
  have hraise : ∀ f : Window → Bool,
      placeTops (((focusedRecord s).filter f).map fun w => Request.placeTop w.id).toList
        = focusedIds s f := by
    intro f
    rw [focusedIds]
    cases (focusedRecord s).filter f <;> rfl
  have hdepth : ∀ i, (renderable s).filter (fun w => w.visible && w.floating
      && stackingDepth s w = i + 1) = s.windows.filter fun w => w.shown && atDepth s i w := by
    intro i
    rw [renderable, List.filter_filter]
    congr 1
    funext w
    simp only [Window.shown, atDepth]
    grind
  rw [stackRequests, placeTops_append, placeTops_flatMap, hraise]
  simp only [placeTops_append, hdepth, placeTops_map, hraise]
  rfl

variable {s}

/-- The shown windows of a kind. -/
theorem mem_shownIds {f : Window → Bool} {id : Nat} :
    id ∈ shownIds s f ↔ ∃ w ∈ s.windows, w.shown = true ∧ f w = true ∧ w.id = id := by
  simp only [shownIds, List.mem_map, List.mem_filter, Bool.and_eq_true, and_assoc]

/-- The focused window is one of those shown. -/
theorem focusedIds_subset (f : Window → Bool) : focusedIds s f ⊆ shownIds s f := by
  intro id hid
  simp only [focusedIds, Option.mem_toList, Option.map_eq_some_iff, Option.filter_eq_some_iff] at hid
  obtain ⟨w, ⟨hrecord, hf⟩, rfl⟩ := hid
  have hmem := List.mem_of_getLast? hrecord
  simp only [renderable, List.mem_filter, Bool.and_eq_true] at hmem
  exact mem_shownIds.mpr ⟨w, hmem.1.1, by simp [Window.shown, hmem], hf, rfl⟩

/-- A shown window is listed only under its own kind. -/
theorem not_mem_shownIds (hids : (s.windows.map Window.id).Nodup) {v : Window} (hv : v ∈ s.windows)
    {f : Window → Bool} (hf : f v = false) : v.id ∉ shownIds s f := by
  intro hmem
  obtain ⟨w, hw, -, hfw, heq⟩ := mem_shownIds.mp hmem
  rw [List.inj_on_of_nodup_map hids hw hv heq, hf] at hfw
  contradiction

/-- A round stacks shown windows of its depth. -/
theorem round_subset (i : Nat) : round s i ⊆ shownIds s (atDepth s i) :=
  List.append_subset.mpr ⟨List.Subset.refl _, focusedIds_subset _⟩

/-- No floating window is deeper than the maximum. -/
theorem lt_maximumDepth {w : Window} (hw : w ∈ s.windows) (hfloat : w.floating = true) :
    stackingDepth s w ≤ maximumDepth s := by
  have hmem : stackingDepth s w ∈ (s.windows.filter Window.floating).map (stackingDepth s) :=
    List.mem_map_of_mem (List.mem_filter.mpr ⟨hw, hfloat⟩)
  rw [maximumDepth, List.foldl_max_eq_max (List.ne_nil_of_mem hmem)]
  exact le_max_of_le_right (List.le_max_of_mem hmem)

/-- The only visible window with the focus is the focused one, unless the session is locked. -/
theorem focusedIds_eq (hunlocked : s.locked = false)
    (hfocus : (s.windows.filter fun w => w.visible && w.focused).length ≤ 1) {w : Window}
    (hw : w ∈ s.windows) (hshown : w.shown = true) (hfocused : w.focused = true)
    (f : Window → Bool) (hf : f w = true) : focusedIds s f = [w.id] := by
  simp only [Window.shown, Bool.and_eq_true, Bool.not_eq_true'] at hshown
  have hmem : w ∈ (renderable s).filter fun w => w.visible && w.focused && !s.locked := by
    simp [renderable, hw, hshown, hfocused, hunlocked]
  have hsub : ((renderable s).filter fun w => w.visible && w.focused && !s.locked).Sublist
      (s.windows.filter fun w => w.visible && w.focused) := by
    rw [hunlocked, renderable]
    simp only [Bool.not_false, Bool.and_true]
    exact List.Sublist.filter _ List.filter_sublist
  obtain ⟨v, hv⟩ := List.length_eq_one_iff.mp
    (le_antisymm (hsub.length_le.trans hfocus) (List.length_pos_of_mem hmem))
  rw [hv, List.mem_singleton] at hmem
  rw [focusedIds, focusedRecord, hv, ← hmem, List.getLast?_singleton, Option.filter_some, if_pos hf]
  rfl

end Moves

/-! ## The resulting order -/

section Order

variable {s : State}

/-- The moves of a render sequence. -/
def moves (s : State) : List Nat :=
  shownIds s (fun w => !w.floating)
    ++ (focusedIds s (fun w => !w.floating) ++ (List.range (maximumDepth s)).flatMap (round s))

/-- A tile is not moved once the floating windows are. -/
theorem not_mem_rounds (hids : (s.windows.map Window.id).Nodup) {v : Window} (hv : v ∈ s.windows)
    (l : List Nat) (hf : ∀ i ∈ l, atDepth s i v = false) : v.id ∉ l.flatMap (round s) := by
  intro hmem
  obtain ⟨i, hi, hround⟩ := List.mem_flatMap.mp hmem
  exact not_mem_shownIds hids hv (hf i hi) (round_subset i hround)

/-- A shown floating window is stacked in the round of its depth. -/
theorem mem_round {w : Window} (hw : w ∈ s.windows) (hshown : w.shown = true)
    (hfloat : w.floating = true) {i : Nat} (hdepth : stackingDepth s w = i + 1) :
    w.id ∈ round s i :=
  List.mem_append_left _ (mem_shownIds.mpr ⟨w, hw, hshown, by simp [atDepth, hfloat, hdepth], rfl⟩)

/-- A floating window has a round of its own. -/
theorem exists_round {w : Window} (hw : w ∈ s.windows) (hfloat : w.floating = true) :
    ∃ i < maximumDepth s, stackingDepth s w = i + 1 := by
  have hle := lt_maximumDepth hw hfloat
  rw [stackingDepth, ancestryDepth_eq] at hle ⊢
  exact ⟨_, hle, rfl⟩

variable (hids : (s.windows.map Window.id).Nodup) (order : List Nat)
include hids

/-- Floating windows are above tiles. -/
theorem float_above_tile {w v : Window} (hw : w ∈ s.windows) (hv : v ∈ s.windows)
    (hshownw : w.shown = true) (hshownv : v.shown = true) (hfloat : w.floating = true)
    (htile : v.floating = false) : Above (raiseAll (moves s) order) w.id v.id := by
  obtain ⟨i, hi, hdepth⟩ := exists_round hw hfloat
  have hmemv : v.id ∈ shownIds s fun w => !w.floating :=
    mem_shownIds.mpr ⟨v, hv, hshownv, by simp [htile], rfl⟩
  rw [moves, ← List.append_assoc]
  refine above_of_append (List.mem_append_left _ hmemv)
    (List.mem_flatMap.mpr ⟨i, List.mem_range.mpr hi, mem_round hw hshownw hfloat hdepth⟩) ?_
  exact not_mem_rounds hids hv _ fun j _ => by simp [atDepth, htile]

/-- The deeper of two floating windows is above. -/
theorem deeper_above {w v : Window} (hw : w ∈ s.windows) (hv : v ∈ s.windows)
    (hshownw : w.shown = true) (hshownv : v.shown = true) (hfloatw : w.floating = true)
    (hfloatv : v.floating = true) (hless : stackingDepth s v < stackingDepth s w) :
    Above (raiseAll (moves s) order) w.id v.id := by
  obtain ⟨i, hi, hdepthw⟩ := exists_round hw hfloatw
  obtain ⟨j, hj, hdepthv⟩ := exists_round hv hfloatv
  have hbefore : v.id ∈ (List.range i).flatMap (round s) := List.mem_flatMap.mpr
    ⟨j, List.mem_range.mpr (by omega), mem_round hv hshownv hfloatv hdepthv⟩
  rw [moves, flatMap_range_split (round s) hi, ← List.append_assoc, ← List.append_assoc]
  refine above_of_append (List.mem_append_right _ hbefore)
    (List.mem_append_left _ (mem_round hw hshownw hfloatw hdepthw)) ?_
  rw [← List.flatMap_cons]
  refine not_mem_rounds hids hv _ fun k hk => ?_
  have hlater : j ≠ k := by
    rcases List.mem_cons.mp hk with rfl | hk
    · omega
    · have hge := (List.mem_range'_1.mp hk).1
      omega
  simp only [atDepth, hdepthv, Nat.add_right_cancel_iff, hlater, decide_false, Bool.and_false]

variable (hunlocked : s.locked = false)
  (hfocus : (s.windows.filter fun w => w.visible && w.focused).length ≤ 1)
include hunlocked hfocus

/-- The focused tile is above the other tiles. -/
theorem focused_tile_above {w v : Window} (hw : w ∈ s.windows) (hv : v ∈ s.windows)
    (hshownw : w.shown = true) (hshownv : v.shown = true) (hfocused : w.focused = true)
    (htilew : w.floating = false) (htilev : v.floating = false) (hne : w ≠ v) :
    Above (raiseAll (moves s) order) w.id v.id := by
  have hid : v.id ≠ w.id := fun heq => hne (List.inj_on_of_nodup_map hids hv hw heq).symm
  have hlast := focusedIds_eq hunlocked hfocus hw hshownw hfocused (fun w => !w.floating)
    (by simp [htilew])
  rw [moves, hlast]
  refine above_of_append (mem_shownIds.mpr ⟨v, hv, hshownv, by simp [htilev], rfl⟩)
    (List.mem_append_left _ (List.mem_singleton_self _)) fun hmem => ?_
  rcases List.mem_append.mp hmem with hmem | hmem
  · exact hid (List.mem_singleton.mp hmem)
  · exact not_mem_rounds hids hv _ (fun j _ => by simp [atDepth, htilev]) hmem

/-- The focused floating window is above the others of its depth. -/
theorem focused_float_above {w v : Window} (hw : w ∈ s.windows) (hv : v ∈ s.windows)
    (hshownw : w.shown = true) (hshownv : v.shown = true) (hfocused : w.focused = true)
    (hfloatw : w.floating = true) (hfloatv : v.floating = true)
    (hdepth : stackingDepth s v = stackingDepth s w) (hne : w ≠ v) :
    Above (raiseAll (moves s) order) w.id v.id := by
  have hid : v.id ≠ w.id := fun heq => hne (List.inj_on_of_nodup_map hids hv hw heq).symm
  obtain ⟨i, hi, hdepthw⟩ := exists_round hw hfloatw
  have hlast := focusedIds_eq hunlocked hfocus hw hshownw hfocused (atDepth s i)
    (by simp [atDepth, hfloatw, hdepthw])
  have hmemv : v.id ∈ shownIds s (atDepth s i) :=
    mem_shownIds.mpr ⟨v, hv, hshownv, by simp [atDepth, hfloatv, hdepth, hdepthw], rfl⟩
  -- The round ends with the focused window, and no later round is of this depth.
  rw [moves, flatMap_range_split (round s) hi, round, hlast]
  simp only [← List.append_assoc]
  rw [List.append_assoc _ [w.id]]
  refine above_of_append (List.mem_append_right _ hmemv)
    (List.mem_append_left _ (List.mem_singleton_self _)) fun hmem => ?_
  rcases List.mem_append.mp hmem with hmem | hmem
  · exact hid (List.mem_singleton.mp hmem)
  · refine not_mem_rounds hids hv _ (fun k hk => ?_) hmem
    have hlater : i ≠ k := by
      have hge := (List.mem_range'_1.mp hk).1
      omega
    simp only [atDepth, hdepth, hdepthw, Nat.add_right_cancel_iff, hlater, decide_false,
      Bool.and_false]

end Order

/-! ## The sequence -/

/-- A window wherever it is. -/
def Window.unpositioned (w : Window) : Window := { w with x := 0, y := 0 }

/-- Only positions differ. -/
structure Repositioned (s s' : State) : Prop where
  windows : s'.windows.map Window.unpositioned = s.windows.map Window.unpositioned
  locked : s'.locked = s.locked
  failed : s'.failed = s.failed
  phase : s'.phase = s.phase
  requests : s'.requests = s.requests

namespace Repositioned

variable {s s' s'' : State}

theorem refl (s : State) : Repositioned s s := ⟨rfl, rfl, rfl, rfl, rfl⟩

theorem trans (h : Repositioned s s') (h' : Repositioned s' s'') : Repositioned s s'' :=
  ⟨h'.windows.trans h.windows, h'.locked.trans h.locked, h'.failed.trans h.failed,
    h'.phase.trans h.phase, h'.requests.trans h.requests⟩

/-- A property of windows that does not depend on positions. -/
theorem filter_length (h : Repositioned s s') {f : Window → Bool}
    (hf : ∀ w, f w.unpositioned = f w) :
    (s'.windows.filter f).length = (s.windows.filter f).length := by
  have hmap : ∀ l : List Window,
      ((l.map Window.unpositioned).filter f).length = (l.filter f).length := by
    intro l
    rw [List.filter_map, List.length_map]
    exact congrArg (fun g => (l.filter g).length) (funext hf)
  rw [← hmap, h.windows, hmap]

/-- Repositioning keeps the windows' ids. -/
theorem ids (h : Repositioned s s') : s'.windows.map Window.id = s.windows.map Window.id := by
  have hids := congrArg (List.map Window.id) h.windows
  rw [List.map_map, List.map_map] at hids
  exact hids

end Repositioned

/-- Setting a render position only repositions. -/
theorem repositioned_xwSetRenderPosition (id : Nat) (x y : Int) {s : State}
    (hphase : s.phase = .render) : Repositioned s (xwSetRenderPosition id x y s) := by
  unfold xwSetRenderPosition
  rw [if_neg (not_not.mpr hphase)]
  split
  · exact .refl s
  · split
    · exact .refl s
    · refine ⟨?_, rfl, rfl, rfl, rfl⟩
      simp only [modifyWindow, List.map_map]
      refine List.map_congr_left fun w _ => ?_
      simp only [Function.comp_apply]
      split <;> rfl

/-- So does the render callback. -/
theorem repositioned_render {sys : System} (hphase : sys.bridge.phase = .render) :
    Repositioned sys.bridge (render sys).bridge := by
  refine List.foldlRecOn (motive := fun t => Repositioned sys.bridge t) _ _ (.refl _)
    fun t ht q _ => ?_
  exact ht.trans (repositioned_xwSetRenderPosition _ _ _ (ht.phase.trans hphase))

/-- Sending the stop stacks nothing. -/
theorem placeTops_sendStop (s : State) :
    ∃ extra, (sendStop s).requests = s.requests ++ extra ∧ placeTops extra = [] := by
  unfold sendStop
  split
  · exact ⟨[.stop], rfl, rfl⟩
  · exact ⟨[], (List.append_nil _).symm, rfl⟩

/-- A render transaction stacks as its requests say. -/
theorem placeTops_finish {s : State} (hok : s.failed = false) :
    ∃ sent, (sendStop { (if s.failed then s
        else { send ((renderable s).flatMap (showRequests s) ++ stackRequests s ++ [.renderFinish]) s
          with awaitingRender := false }) with phase := .idle }).requests = s.requests ++ sent
      ∧ placeTops sent = moves s := by
  rw [if_neg (by simp [hok])]
  obtain ⟨extra, heq, hnone⟩ := placeTops_sendStop { send ((renderable s).flatMap (showRequests s)
    ++ stackRequests s ++ [.renderFinish]) s with awaitingRender := false, phase := .idle }
  refine ⟨_, heq.trans (List.append_assoc _ _ _), ?_⟩
  rw [placeTops_append, placeTops_append, placeTops_append, placeTops_shows, placeTops_stack, hnone,
    moves, List.append_nil]
  exact List.append_nil _

/-- What a render sequence that does not fail moves to the top. -/
theorem moves_managerRenderStart {sys : System} (hok : sys.bridge.failed = false)
    (hidle : sys.bridge.phase = .idle) (hmanaged : sys.bridge.managed = true) :
    ∃ s sent, Repositioned { sys.bridge with phase := .render } s
      ∧ (managerRenderStart sys).bridge.requests = sys.bridge.requests ++ sent
      ∧ placeTops sent = moves s := by
  have hrun : managerRenderStart sys = runRender sys := by
    simp [managerRenderStart, hok, hidle, hmanaged]
  have hpos := @repositioned_render ((sys.onBridge fun s => { s with phase := .render }).deliverAll
    (sizeEvents sys.bridge.windows)) rfl
  obtain ⟨sent, heq, hsent⟩ := placeTops_finish (hpos.failed.trans hok)
  refine ⟨_, sent, hpos, ?_, hsent⟩
  rw [hrun]
  exact heq.trans (congrArg (· ++ sent) hpos.requests)

/-- **Stacking**: the climb to the parents ends whatever they are, and leaves a render
sequence with the floating windows above the tiles, each above its floating ancestors unless
these form a cycle; unless the session is locked, the focused tile is above the other tiles
and the focused floating window above the others of its depth. -/
theorem stacking_order {sys : System} (hok : sys.bridge.failed = false)
    (hidle : sys.bridge.phase = .idle) (hmanaged : sys.bridge.managed = true)
    (hids : (sys.bridge.windows.map Window.id).Nodup)
    (hfocus : (sys.bridge.windows.filter fun w => w.visible && w.focused).length ≤ 1)
    (order : List Nat) :
    ∃ (s : State) (sent : List Request),
      s.windows.map Window.unpositioned = sys.bridge.windows.map Window.unpositioned
      ∧ s.locked = sys.bridge.locked
      ∧ (managerRenderStart sys).bridge.requests = sys.bridge.requests ++ sent
      ∧ (∀ w ∈ s.windows, ∃ fuel, ancestryLoop s s.windows.length fuel w 1
          = some (stackingDepth s w))
      ∧ ∀ w ∈ s.windows, ∀ v ∈ s.windows, w.shown = true → v.shown = true →
        let top := raiseAll (placeTops sent) order
        (w.floating = true → v.floating = false → Above top w.id v.id)
        ∧ (w.floating = true → AcyclicFrom (floatingParent s) w →
          TransGen (Links (floatingParent s)) w v → Above top w.id v.id)
        ∧ (s.locked = false → w.focused = true → w ≠ v →
          (w.floating = false → v.floating = false → Above top w.id v.id)
          ∧ (w.floating = true → v.floating = true → stackingDepth s v = stackingDepth s w →
            Above top w.id v.id)) := by
  obtain ⟨s, sent, hpos, hrequests, hsent⟩ := moves_managerRenderStart hok hidle hmanaged
  have hids' : (s.windows.map Window.id).Nodup := hpos.ids ▸ hids
  have hfocus' : (s.windows.filter fun w => w.visible && w.focused).length ≤ 1 :=
    (hpos.filter_length fun _ => rfl).trans_le hfocus
  refine ⟨s, sent, hpos.windows, hpos.locked, hrequests, fun w hw => ?_, ?_⟩
  · have hpos := List.length_pos_of_mem hw
    refine ⟨s.windows.length, ?_⟩
    rw [ancestryLoop_eq s w hpos (by omega), stackingDepth, ancestryDepth_eq]
  · rw [hsent]
    intro w hw v hv hshownw hshownv
    refine ⟨float_above_tile hids' order hw hv hshownw hshownv, fun hfloat hacyclic hreach => ?_,
      fun hunlocked hfocused hne => ⟨fun htilew htilev => ?_, fun hfloatw hfloatv hdepth => ?_⟩⟩
    · obtain ⟨u, -, hlink⟩ := TransGen.tail'_iff.mp hreach
      exact deeper_above hids' order hw hv hshownw hshownv hfloat (Option.filter_eq_some_iff.mp hlink).2
        (stackingDepth_lt hids' hw hacyclic hreach)
    · exact focused_tile_above hids' order hunlocked hfocus' hw hv hshownw hshownv hfocused htilew
        htilev hne
    · exact focused_float_above hids' order hunlocked hfocus' hw hv hshownw hshownv hfocused hfloatw
        hfloatv hdepth hne

/-- A system between two sequences with the given windows. -/
def stackedSystem (locked : Bool) (windows : List Window) : System where
  bridge := { managed := true, locked := locked, windows := windows }
  runtime := ⟨defaultConfig, initialPolicy defaultConfig, [], [], fun _ => "", [], []⟩

/-- A dialog of a floating parent, over a focused tile. -/
def dialogWindows : List Window :=
  [{ id := 1, node := true, visible := true, floating := true, parentId := 2 },
    { id := 2, node := true, visible := true, floating := true, parentId := 3 },
    { id := 3, node := true, visible := true, focused := true },
    { id := 4, node := true, visible := true }]

/-- The floating windows of the run are raised above the others. -/
theorem stacking_order_dialog : ∃ (s : State) (sent : List Request),
    (managerRenderStart (stackedSystem false dialogWindows)).bridge.requests = sent
      ∧ s.windows.map Window.unpositioned = dialogWindows.map Window.unpositioned
      ∧ ∀ w ∈ s.windows, ∀ v ∈ s.windows, w.shown = true → v.shown = true → w.floating = true →
        v.floating = false → Above (raiseAll (placeTops sent) [4, 3, 2, 1]) w.id v.id := by
  obtain ⟨s, sent, hwindows, -, hsent, -, horder⟩ := @stacking_order
    (stackedSystem false dialogWindows) rfl rfl rfl (by decide) (by decide) [4, 3, 2, 1]
  exact ⟨s, sent, hsent, hwindows, fun w hw v hv hshownw hshownv =>
    (horder w hw v hv hshownw hshownv).1⟩

/-- While the session is locked no focused tile is raised: here a later one covers it. -/
theorem locked_focus_covered :
    let windows : List Window := [{ id := 1, node := true, visible := true, focused := true },
      { id := 2, node := true, visible := true }]
    let sys := stackedSystem true windows
    sys.bridge.failed = false ∧ sys.bridge.phase = .idle ∧ sys.bridge.managed = true
      ∧ (sys.bridge.windows.map Window.id).Nodup
      ∧ (sys.bridge.windows.filter fun w => w.visible && w.focused).length ≤ 1
      ∧ (∀ w ∈ sys.bridge.windows, w.shown = true ∧ w.floating = false)
      ∧ ¬Above (raiseAll (placeTops (managerRenderStart sys).bridge.requests) [1, 2]) 1 2 := by
  intro windows sys
  refine ⟨rfl, rfl, rfl, by decide, by decide, by decide, ?_⟩
  have hrequests : placeTops (managerRenderStart sys).bridge.requests = [1, 2] := by decide +kernel
  rw [hrequests]
  decide

end XmonadWayland.Bridge
