import XmonadWayland.Policy.Refocus
import XmonadWayland.Policy.Mode
import XmonadWayland.Base.Climb

/-!
# XmonadWayland.Policy.Direction

Repeated directional focus.  A window is found by its placement and starts the next search
from it; an empty workspace is found by the rectangle of its output, but starts the next
search from its work area.  If panels move the centre of that area back and something lies
between the two centres, the iteration can return to where it was; otherwise the focus is
further ahead after each step, and the iteration stops.
-/

namespace XmonadWayland

open StackSet

/-! ## One step -/

/-- How far ahead the focus is: the centre of the focused window, and for an empty workspace
the centre of its work area or of its output, whichever is further ahead. -/
def mark (direction : Direction) (p : Policy) : Int :=
  let centreOf (r : Option Rect) := centre direction (r.getD ⟨0, 0, 1, 1⟩)
  match p.windowSet.peek with
  | some wid => centreOf (windowRect wid p)
  | none => max (centreOf (currentArea p)) (centreOf (screenOutput p p.windowSet.current))

/-- On an empty workspace, the windows and the empty outputs ahead of the centre of its work
area are also ahead of the centre of its output. -/
structure AheadOfOutput (direction : Direction) (p : Policy) (rect area : Rect) : Prop where
  windows : ∀ q ∈ renderPolicy p, q.placementVisible = true →
    centre direction area < centre direction q.placementRect →
      centre direction rect < centre direction q.placementRect
  outputs : ∀ sc ∈ p.windowSet.screens, sc.screen ≠ p.windowSet.current.screen →
    sc.workspace.stack = none → ∀ target, screenOutput p sc = some target →
      centre direction area < centre direction target →
        centre direction rect < centre direction target

/-- The search does not find anything behind the output whose workspace it starts from. -/
def SearchesAhead (direction : Direction) (p : Policy) : Prop :=
  p.windowSet.peek = none → ∀ rect area, screenOutput p p.windowSet.current = some rect →
    currentArea p = some area → AheadOfOutput direction p rect area

/-- Nothing is hidden by a split layout without fullscreen windows. -/
theorem hiddenNeighbor_of_plain {p : Policy} (hp : PlainDisplay p) (hs : p.windowSet.WellFormed)
    (direction : Direction) : hiddenNeighbor direction p = none := by
  cases hhidden : hiddenNeighbor direction p with
  | none => rfl
  | some wid =>
      have hsingle := (hiddenNeighbor_spec hs hhidden).1
      have hkind := hp.splits _ p.windowSet.current_mem_screens
      have hlayout : p.windowSet.current.workspace.layout.layoutKind
          ∉ [Layout.full, .tabbed, .stacking] := by
        revert hkind
        cases p.windowSet.current.workspace.layout.layoutKind <;> decide
      rw [singleTile, decide_eq_false hlayout, Bool.false_or] at hsingle
      cases hpeek : p.windowSet.peek with
      | none => simp [hpeek] at hsingle
      | some focus =>
          have hfull := hp.fullscreen focus (mem_windows_of_peek hpeek)
          simp only [hpeek] at hsingle
          exact absurd (hfull.symm.trans hsingle) Bool.false_ne_true

/-- The rectangle of a visible placement is that of its window. -/
theorem windowRect_of_placement {p : Policy} (hs : p.windowSet.WellFormed) {q : Placement}
    (hq : q ∈ renderPolicy p) (hvis : q.placementVisible = true) :
    windowRect q.placementWindow p = some q.placementRect := by
  obtain ⟨wid, -, rfl⟩ := List.mem_map.mp hq
  rw [placementVisible_placement] at hvis
  obtain ⟨v, hv⟩ := Option.isSome_iff_exists.mp hvis
  rw [placementWindow_placement, windowRect_eq hs, hv, placement_of_some hv]
  rfl

/-- Without panels nothing lies between the two centres. -/
theorem searchesAhead_of_bare {p : Policy} (hbare : ∀ oid : OutputId, p.workAreas[oid]? = none)
    (direction : Direction) : SearchesAhead direction p := by
  intro _ rect area hrect harea
  have heq : rect = area := by
    rw [currentArea_of_output hrect, Option.some.injEq, screenArea] at harea
    simpa [hbare] using harea
  subst heq
  exact ⟨fun _ _ _ h => h, fun _ _ _ _ _ _ h => h⟩

/-- The mark of a focused window is its rectangle. -/
theorem mark_of_peek {direction : Direction} {p : Policy} {wid : WindowId} {r : Rect}
    (hpeek : p.windowSet.peek = some wid) (hrect : windowRect wid p = some r) :
    mark direction p = centre direction r := by
  simp only [mark, hpeek, hrect, Option.getD_some]

/-- Without a window it is that of the output. -/
theorem mark_of_empty {direction : Direction} {p : Policy} {rect area : Rect}
    (hpeek : p.windowSet.peek = none) (hrect : screenOutput p p.windowSet.current = some rect)
    (harea : currentArea p = some area) :
    mark direction p = max (centre direction area) (centre direction rect) := by
  simp only [mark, hpeek, hrect, harea, Option.getD_some]

/-- What is ahead of the origin is ahead of the mark, if it is ahead of the output. -/
theorem mark_lt {direction : Direction} {p : Policy} {origin : Rect} {c : Int}
    (horigin : directionOrigin p = some origin) (hlt : centre direction origin < c)
    (hahead : p.windowSet.peek = none → ∀ rect, screenOutput p p.windowSet.current = some rect →
      centre direction rect < c) : mark direction p < c := by
  cases hpeek : p.windowSet.peek with
  | some wid =>
      rw [directionOrigin, hpeek] at horigin
      rwa [mark_of_peek hpeek horigin]
  | none =>
      rw [directionOrigin, hpeek] at horigin
      obtain ⟨rect, hrect, -⟩ := exists_output_of_currentArea horigin
      rw [mark_of_empty hpeek hrect horigin]
      exact max_lt hlt (hahead hpeek rect hrect)

/-- A step that finds something moves the focus further ahead. -/
theorem mark_focusDirection {direction : Direction} {p : Policy} (hs : p.windowSet.WellFormed)
    (hp : PlainDisplay p) (hfinds : directionTarget direction p ≠ none)
    (hahead : SearchesAhead direction p) :
    mark direction p < mark direction (focusDirection direction p) := by
  have hre := refocused_focusDirection hs direction
  have hhidden := hiddenNeighbor_of_plain hp hs direction
  obtain ⟨nav, htarget⟩ := Option.ne_none_iff_exists'.mp hfinds
  have hfound := found_of_directionTarget htarget
  cases nav with
  | toWindow wid =>
      have hnext : (focusDirection direction p).windowSet = p.windowSet.focusWindow wid := by
        simp only [focusDirection, htarget]
      obtain ⟨sc, hsc, hwid⟩ := hfound.exists_screen hs
      have hpeek : (focusDirection direction p).windowSet.peek = some wid := by
        rw [hnext]
        exact peek_focusWindow hs (mem_windows_of_mem (mem_workspaces_of_mem_screens hsc) hwid)
      cases hfound with
      | hidden _ hsome => exact absurd (hhidden.symm.trans hsome) (Option.some_ne_none _).symm
      | window origin q _ horigin hq hvis _ _ hlt =>
          have hrect := (hre.windowRect_eq hs hp _).trans (windowRect_of_placement hs hq hvis)
          rw [mark_of_peek hpeek hrect]
          refine mark_lt horigin hlt fun hempty rect hout => ?_
          rw [directionOrigin, hempty] at horigin
          exact (hahead hempty rect origin hout horigin).windows q hq hvis hlt
  | toWorkspace tag =>
      cases hfound with
      | workspace origin sc target _ horigin hsc hne hempty htarget' hlt =>
          have hnext : (focusDirection direction p).windowSet = p.windowSet.view sc.workspace.tag := by
            simp only [focusDirection, htarget]
          obtain ⟨hpeek, hscreen⟩ := view_empty hs hsc hempty
          rw [← hnext] at hpeek hscreen
          have hout : screenOutput (focusDirection direction p)
              (focusDirection direction p).windowSet.current = some target := by
            rw [← htarget', screenOutput, screenOutput, hscreen, hre.outputs]
          have hmark : mark direction p < centre direction target := by
            refine mark_lt horigin hlt fun hnone rect hrect => ?_
            rw [directionOrigin, hnone] at horigin
            exact (hahead hnone rect origin hrect horigin).outputs sc hsc hne hempty target htarget' hlt
          rw [mark_of_empty hpeek hout (currentArea_of_output hout)]
          omega

/-! ## Positions -/

/-- Where the focus is. -/
inductive FocusPosition where
  | window (wid : WindowId)
  | empty (output : Option OutputId) (tag : WorkspaceId)
  deriving DecidableEq

def focusPosition (p : Policy) : FocusPosition :=
  match p.windowSet.peek with
  | some wid => .window wid
  | none => .empty p.windowSet.current.screen p.windowSet.currentTag

/-- The visible windows, and the displayed workspaces of the outputs. -/
def focusPositions (p : Policy) : List FocusPosition :=
  (visibleWindows p).map .window ++ (p.windowSet.screens.filter fun sc => sc.screen.isSome).map
    fun sc => .empty sc.screen sc.workspace.tag

/-- There are no more positions than visible windows and screens. -/
theorem length_focusPositions {tags : List WorkspaceId} {p : Policy} (hc : Consistent tags p) :
    (focusPositions p).length ≤ (visibleWindows p).length + p.outputs.size := by
  rw [focusPositions, List.length_append, List.length_map, List.length_map]
  by_cases hout : p.outputs.isEmpty
  · -- The virtual screen has no output.
    have hvirtual := hc.screens.virtual hout
    have hnone : (p.windowSet.screens.filter fun sc => sc.screen.isSome) = [] := by
      refine List.filter_eq_nil_iff.mpr fun sc hsc => ?_
      have hmem : sc.screen ∈ [none] := hvirtual ▸ List.mem_map_of_mem hsc
      simp [List.mem_singleton.mp hmem]
    rw [hnone, List.length_nil]
    omega
  · have hcount := hc.screens.count hout
    have hle := List.length_filter_le (fun sc => sc.screen.isSome) p.windowSet.screens
    omega

variable {p p' p'' : Policy}

/-- The position determines how far ahead the focus is. -/
theorem Refocused.mark_eq (h : Refocused p p') (h' : Refocused p p'') (hs : p.windowSet.WellFormed)
    (hp : PlainDisplay p) (hpos : focusPosition p' = focusPosition p'') (direction : Direction) :
    mark direction p' = mark direction p'' := by
  unfold focusPosition at hpos
  unfold mark
  cases hpeek : p'.windowSet.peek with
  | some wid =>
      cases hpeek' : p''.windowSet.peek with
      | some wid' =>
          rw [hpeek, hpeek'] at hpos
          obtain rfl := FocusPosition.window.inj hpos
          simp only [h.windowRect_eq hs hp, h'.windowRect_eq hs hp]
      | none => simp [hpeek, hpeek'] at hpos
  | none =>
      cases hpeek' : p''.windowSet.peek with
      | some wid' => simp [hpeek, hpeek'] at hpos
      | none =>
          rw [hpeek, hpeek'] at hpos
          obtain ⟨hscreen, -⟩ := FocusPosition.empty.inj hpos
          have hout : screenOutput p' p'.windowSet.current = screenOutput p'' p''.windowSet.current := by
            rw [screenOutput, screenOutput, hscreen, h.outputs, h'.outputs]
          have harea : currentArea p' = currentArea p'' := by
            rw [currentArea, currentArea, focusedOutput, focusedOutput, hscreen]
            exact congrArg _ (funext fun oid => (h.areaFor oid).trans (h'.areaFor oid).symm)
          simp only [hout, harea]

/-- Only from these positions the focus moves on. -/
theorem Refocused.mem_focusPositions (h : Refocused p p') (hs : p.windowSet.WellFormed)
    (hp : PlainDisplay p) {direction : Direction} (hfinds : directionTarget direction p' ≠ none) :
    focusPosition p' ∈ focusPositions p := by
  have hhidden := hiddenNeighbor_of_plain (h.plainDisplay hs hp) h.wellFormed direction
  have horigin : directionOrigin p' ≠ none := fun hnone => by
    rw [directionTarget_of_shown hhidden, hnone] at hfinds
    exact hfinds rfl
  obtain ⟨origin, horigin⟩ := Option.ne_none_iff_exists'.mp horigin
  unfold focusPosition focusPositions
  unfold directionOrigin at horigin
  cases hpeek : p'.windowSet.peek with
  | some wid =>
      simp only [hpeek] at horigin ⊢
      rw [h.windowRect_eq hs hp, XmonadWayland.windowRect_eq hs, Option.map_eq_some_iff] at horigin
      obtain ⟨v, hv, -⟩ := horigin
      exact List.mem_append_left _ (List.mem_map_of_mem ((mem_visibleWindows hs).mpr ⟨v, hv⟩))
  | none =>
      simp only [hpeek] at horigin ⊢
      obtain ⟨oid, hid, -⟩ := Option.bind_eq_some_iff.mp horigin
      obtain ⟨sc, hsc, hshown, -, -⟩ :=
        h.orders.exists_screen hs h.wellFormed p'.windowSet.current_mem_screens
      have hscreen : sc.screen = p'.windowSet.current.screen := congrArg Prod.fst hshown
      have htag : sc.workspace.tag = p'.windowSet.currentTag := congrArg (fun x => x.2.2) hshown
      refine List.mem_append_right _ (List.mem_map.mpr ⟨sc, List.mem_filter.mpr ⟨hsc, ?_⟩, ?_⟩)
      · rw [hscreen, ← focusedOutput, hid, Option.isSome_some]
      · rw [hscreen, htag]

/-! ## The iteration -/

/-- The policy after `n` times directional focus. -/
def focusRun (cfg : Config) (direction : Direction) (p : Policy) : Nat → Policy
  | 0 => p
  | n + 1 => step cfg (focusRun cfg direction p n) (.actionRequested (.focusDirection direction))

/-- From here on nothing changes, except that a pointer operation ends. -/
def StopsAt (cfg : Config) (direction : Direction) (p : Policy) (n : Nat) : Prop :=
  ∀ m, n < m → focusRun cfg direction p m = cancelPointer (focusRun cfg direction p n)

/-- One step of the iteration. -/
theorem step_focusDirection (cfg : Config) {p : Policy} (hs : p.windowSet.WellFormed)
    (hopen : Open p) (hset : Settled p) (hp : PlainDisplay p) (direction : Direction) :
    step cfg p (.actionRequested (.focusDirection direction))
      = focusDirection direction (cancelPointer p) := by
  have hframe := frame_cancelPointer p
  have hset' : Settled (cancelPointer p) := hset.frame hs hframe rfl
  have hre := refocused_focusDirection (p := cancelPointer p) hs direction
  have hprep : step cfg p (.actionRequested (.focusDirection direction))
      = step cfg (cancelPointer p) (.actionRequested (.focusDirection direction)) := rfl
  rw [hprep]
  refine step_of_settled cfg rfl ?_ hre.anchors ?_
  · rw [handleOrdinaryEvent, requestAction_of_open cfg _ (hopen.frame hframe)]
    rfl
  · refine hre.settled hs ⟨hp.fullscreen, hp.splits⟩ hset' ?_
    unfold focusDirection
    cases directionTarget direction (cancelPointer p) with
    | none => rfl
    | some nav => cases nav <;> rfl

/-- The iteration keeps the policy reachable and unlocked, and changes the focus only. -/
structure Iterating (cfg : Config) (p q : Policy) : Prop where
  reachable : Reachable cfg q
  unlocked : Open q
  refocused : Refocused p q

/-- A step in the direction goes on with the run. -/
theorem Iterating.step {cfg : Config} {p q : Policy} (h : Iterating cfg p q)
    (hs : p.windowSet.WellFormed) (hp : PlainDisplay p) (direction : Direction) :
    step cfg q (.actionRequested (.focusDirection direction))
        = focusDirection direction (cancelPointer q)
      ∧ Iterating cfg p (step cfg q (.actionRequested (.focusDirection direction))) := by
  have hq := h.refocused.wellFormed
  have hstep := step_focusDirection cfg hq h.unlocked (settled_of_reachable h.reachable)
    (h.refocused.plainDisplay hs hp) direction
  have hre := refocused_focusDirection (p := cancelPointer q) hq direction
  have hcancel : Refocused q (cancelPointer q) :=
    ⟨rfl, hq, SameOrders.refl _, List.Perm.refl _⟩
  have hnext := hcancel.trans hre
  refine ⟨hstep, .event _ h.reachable, ?_, ?_⟩
  · rw [hstep, hnext.same]
    exact ⟨h.unlocked.unlocked, h.unlocked.mode⟩
  · rw [hstep]
    exact h.refocused.trans hnext

/-- The focus can be moved on and on. -/
theorem iterating_focusRun {cfg : Config} {p : Policy} (h : Reachable cfg p) (hopen : Open p)
    (hp : PlainDisplay p) (direction : Direction) (n : Nat) :
    Iterating cfg p (focusRun cfg direction p n) := by
  have hs := (managed_of_reachable h).wellFormed
  induction n with
  | zero => exact ⟨h, hopen, Refocused.refl hs⟩
  | succ n ih => exact (ih.step hs hp direction).2

/-- One step more goes on from where the run was. -/
theorem focusRun_succ {cfg : Config} {p : Policy} (h : Reachable cfg p) (hopen : Open p)
    (hp : PlainDisplay p) (direction : Direction) (n : Nat) :
    focusRun cfg direction p (n + 1)
      = focusDirection direction (cancelPointer (focusRun cfg direction p n)) :=
  ((iterating_focusRun h hopen hp direction n).step (managed_of_reachable h).wellFormed hp direction).1

/-- Where the search finds nothing the iteration stops. -/
theorem stopsAt_of_none {cfg : Config} {p : Policy} (h : Reachable cfg p) (hopen : Open p)
    (hp : PlainDisplay p) {direction : Direction} {n : Nat}
    (hnone : directionTarget direction (focusRun cfg direction p n) = none) :
    StopsAt cfg direction p n := by
  have hcancel : focusDirection direction (cancelPointer (focusRun cfg direction p n))
      = cancelPointer (focusRun cfg direction p n) := by
    have hnone' : directionTarget direction (cancelPointer (focusRun cfg direction p n)) = none :=
      hnone
    rw [focusDirection, hnone']
  intro m hm
  induction m, hm using Nat.le_induction with
  | base => rw [focusRun_succ h hopen hp, hcancel]
  | succ m _ ih =>
      rw [focusRun_succ h hopen hp, ih]
      exact hcancel

/-- While the search finds only what is ahead of the output, the iteration climbs. -/
theorem climb_focusRun {cfg : Config} {p : Policy} (h : Reachable cfg p) (hopen : Open p)
    (hp : PlainDisplay p) {direction : Direction}
    (hahead : ∀ n, SearchesAhead direction (focusRun cfg direction p n)) :
    Climb (fun n => focusPosition (focusRun cfg direction p n))
      (fun n => mark direction (focusRun cfg direction p n))
      (fun n => directionTarget direction (focusRun cfg direction p n) = none) := by
  have hs := (managed_of_reachable h).wellFormed
  have hiter := iterating_focusRun h hopen hp direction
  constructor
  · intro n hnone
    rw [stopsAt_of_none h hopen hp hnone (n + 1) n.lt_succ_self]
    rfl
  · intro n hfinds
    rw [focusRun_succ h hopen hp]
    have hplain := (hiter n).refocused.plainDisplay hs hp
    refine mark_focusDirection (p := cancelPointer (focusRun cfg direction p n))
      (hiter n).refocused.wellFormed ⟨hplain.fullscreen, hplain.splits⟩ hfinds ?_
    intro hpeek rect area hrect harea
    have hpast := hahead n hpeek rect area hrect harea
    exact ⟨hpast.windows, hpast.outputs⟩
  · intro i j hpos
    exact (hiter i).refocused.mark_eq (hiter j).refocused hs hp hpos direction

/-- **Directional focus stops**: while its searches do not find anything behind the output
they start from, a position is seen again only where the iteration stops, which it does
after at most as many steps as there are visible windows and outputs. -/
theorem directional_focus_stops {cfg : Config} {p : Policy} (h : Reachable cfg p) (hopen : Open p)
    (hp : PlainDisplay p) (direction : Direction)
    (hahead : ∀ n, SearchesAhead direction (focusRun cfg direction p n)) :
    (∀ i j, i < j → focusPosition (focusRun cfg direction p i)
        = focusPosition (focusRun cfg direction p j) → StopsAt cfg direction p i)
      ∧ ∃ n ≤ (visibleWindows p).length + p.outputs.size, StopsAt cfg direction p n := by
  have hc := (managed_of_reachable h).toConsistent
  have hclimb := climb_focusRun h hopen hp hahead
  refine ⟨fun i j hij hpos => stopsAt_of_none h hopen hp (hclimb.still_of_place_eq hij hpos), ?_⟩
  obtain ⟨n, hn, hnone⟩ := hclimb.exists_still fun n hfinds =>
    (iterating_focusRun h hopen hp direction n).refocused.mem_focusPositions hc.wellFormed hp hfinds
  exact ⟨n, hn.trans (length_focusPositions hc), stopsAt_of_none h hopen hp hnone⟩

/-- From a window to the empty workspace of the next output, and no further. -/
theorem directional_focus_stops_two :
    let p := runEvents defaultConfig [.outputUpsert 1 ⟨0, 0, 200, 100⟩,
      .outputUpsert 2 ⟨200, 0, 200, 100⟩, .windowAdded 10] (initialPolicy defaultConfig)
    ∃ n ≤ (visibleWindows p).length + p.outputs.size, StopsAt defaultConfig .goRight p n := by
  intro p
  have hreach : Reachable defaultConfig p := reachable_runEvents validateConfig_defaultConfig _
  have hopen : Open p := ⟨by decide +kernel, by decide +kernel⟩
  have hp : PlainDisplay p := ⟨by decide +kernel, by decide +kernel⟩
  have hbare : p.workAreas = ∅ := Std.ExtTreeMap.isEmpty_iff.mp (by decide +kernel)
  refine (directional_focus_stops hreach hopen hp .goRight fun n => ?_).2
  refine searchesAhead_of_bare (fun oid => ?_) _
  rw [(iterating_focusRun hreach hopen hp .goRight n).refocused.same, hbare]
  rfl

/-- One output above another, the lower one with a panel at its right edge.  The centre of the
window lies behind that of the lower output, but ahead of that of its work area. -/
theorem directional_focus_circles :
    let p := runEvents defaultConfig [.outputUpsert 1 ⟨0, 0, 200, 100⟩,
      .outputUpsert 2 ⟨0, 100, 220, 100⟩, .outputWorkArea 2 ⟨0, 100, 180, 100⟩, .windowAdded 10]
      (initialPolicy defaultConfig)
    Reachable defaultConfig p ∧ Open p ∧ PlainDisplay p
      ∧ focusPosition (focusRun defaultConfig .goRight p 0)
          = focusPosition (focusRun defaultConfig .goRight p 2)
      ∧ ¬StopsAt defaultConfig .goRight p 0 := by
  intro p
  refine ⟨reachable_runEvents validateConfig_defaultConfig _, ⟨by decide +kernel, by decide +kernel⟩,
    ⟨by decide +kernel, by decide +kernel⟩, by decide +kernel, fun hstops => ?_⟩
  have hmoved : (focusRun defaultConfig .goRight p 1).windowSet.peek ≠ p.windowSet.peek := by
    decide +kernel
  exact hmoved (congrArg (fun q => q.windowSet.peek) (hstops 1 Nat.one_pos))

end XmonadWayland
