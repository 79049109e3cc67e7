import XmonadWayland.Policy.Visible

/-!
# XmonadWayland.Policy.Target

What a directional search can find: the neighbour in stack order where the layout hides
it, and otherwise a visible window of the same mode or an empty workspace of another
output, whose centre lies ahead of the centre the search started from.
-/

namespace XmonadWayland

open StackSet

/-- How far the centre of a rectangle lies in a direction, in half pixels. -/
def centre (direction : Direction) (r : Rect) : Int :=
  match direction with
  | .goLeft => -(2 * r.rectX + r.rectWidth)
  | .goRight => 2 * r.rectX + r.rectWidth
  | .goUp => -(2 * r.rectY + r.rectHeight)
  | .goDown => 2 * r.rectY + r.rectHeight

/-- Only rectangles ahead have a score. -/
theorem centre_lt_of_score {direction : Direction} {origin target : Rect} {score : Int × Int × Int}
    (h : directionScore direction origin target = some score) :
    centre direction origin < centre direction target := by
  obtain ⟨ox, oy, ow, oh⟩ := origin
  obtain ⟨tx, ty, tw, th⟩ := target
  cases direction <;>
    simp only [directionScore, reduceCtorEq, or_true, or_false, or_self, if_true, if_false,
      Option.ite_none_left_eq_some] at h <;>
    simp only [centre] <;> omega

/-- The rectangle a directional search starts from. -/
def directionOrigin (p : Policy) : Option Rect :=
  match p.windowSet.peek with
  | some wid => windowRect wid p
  | none => currentArea p

/-- What a directional search can find. -/
inductive Found (direction : Direction) (p : Policy) : Navigation → Prop
  | hidden (wid : WindowId) : hiddenNeighbor direction p = some wid →
      Found direction p (.toWindow wid)
  | window (origin : Rect) (q : Placement) : hiddenNeighbor direction p = none →
      directionOrigin p = some origin → q ∈ renderPolicy p → q.placementVisible = true →
      some q.placementWindow ≠ p.windowSet.peek → sameMode p q.placementWindow = true →
      centre direction origin < centre direction q.placementRect →
      Found direction p (.toWindow q.placementWindow)
  | workspace (origin : Rect) (sc : OutputScreen) (rect : Rect) :
      hiddenNeighbor direction p = none → directionOrigin p = some origin →
      sc ∈ p.windowSet.screens → sc.screen ≠ p.windowSet.current.screen →
      sc.workspace.stack = none → screenOutput p sc = some rect →
      centre direction origin < centre direction rect →
      Found direction p (.toWorkspace sc.workspace.tag)

/-- Without a hidden neighbour the nearest place is the target. -/
theorem directionTarget_of_shown {direction : Direction} {p : Policy}
    (h : hiddenNeighbor direction p = none) : directionTarget direction p
      = (directionOrigin p).bind fun origin =>
        ((windowTargets direction p origin ++ emptyTargets direction p origin).insertionSort
          fun a b => scoreLe a.1 b.1).head?.map Prod.snd := by
  unfold directionTarget directionOrigin
  rw [h]
  cases p.windowSet.peek <;> rfl

/-- A target was found one of these ways. -/
theorem found_of_directionTarget {direction : Direction} {p : Policy} {nav : Navigation}
    (h : directionTarget direction p = some nav) : Found direction p nav := by
  cases hhidden : hiddenNeighbor direction p with
  | some wid =>
      simp only [directionTarget, hhidden, Option.some.injEq] at h
      exact h ▸ .hidden wid hhidden
  | none =>
      rw [directionTarget_of_shown hhidden] at h
      obtain ⟨origin, horigin, hsearch⟩ := Option.bind_eq_some_iff.mp h
      obtain ⟨⟨score, nav'⟩, hhead, rfl⟩ := Option.map_eq_some_iff.mp hsearch
      have hmem := (List.perm_insertionSort _ _).mem_iff.mp (List.mem_of_head? hhead)
      rcases List.mem_append.mp hmem with hwindow | hworkspace
      · obtain ⟨q, hq, hscored⟩ := List.mem_filterMap.mp hwindow
        split at hscored
        · next hcond =>
          obtain ⟨score', hscore, heq⟩ := Option.map_eq_some_iff.mp hscored
          obtain ⟨rfl, rfl⟩ := Prod.mk.inj heq
          exact .window origin q hhidden horigin hq hcond.1 hcond.2.1 hcond.2.2
            (centre_lt_of_score hscore)
        · contradiction
      · obtain ⟨sc, hsc, hscored⟩ := List.mem_filterMap.mp hworkspace
        split at hscored
        · next hcond =>
          obtain ⟨rect, hrect, hmap⟩ := Option.bind_eq_some_iff.mp hscored
          obtain ⟨score', hscore, heq⟩ := Option.map_eq_some_iff.mp hmap
          obtain ⟨rfl, rfl⟩ := Prod.mk.inj heq
          exact .workspace origin sc rect hhidden horigin hsc hcond.1 hcond.2 hrect
            (centre_lt_of_score hscore)
        · contradiction

/-- A visible window is on a displayed workspace of a live output. -/
theorem exists_screen_of_placement {p : Policy} (hs : p.windowSet.WellFormed) {q : Placement}
    (hq : q ∈ renderPolicy p) (hvis : q.placementVisible = true) : ∃ sc ∈ p.windowSet.screens,
      (∃ oid, sc.screen = some oid)
        ∧ q.placementWindow ∈ Stack.integrate' sc.workspace.stack := by
  obtain ⟨wid, -, rfl⟩ := List.mem_map.mp hq
  rw [placementVisible_placement] at hvis
  obtain ⟨v, hv⟩ := Option.isSome_iff_exists.mp hvis
  obtain ⟨sc, hsc, hmem⟩ := (getElem?_rectangles hs).mp hv
  obtain ⟨rect, stack, hout, -⟩ := mem_screenRects hmem
  obtain ⟨oid, hid, -⟩ := Option.bind_eq_some_iff.mp hout
  rw [placementWindow_placement]
  exact ⟨sc, hsc, ⟨oid, hid⟩, mem_stack_of_screenRects hmem⟩

/-- The neighbour in stack order: another window of the current workspace and mode. -/
theorem hiddenNeighbor_spec {direction : Direction} {p : Policy} (hs : p.windowSet.WellFormed)
    {wid : WindowId} (h : hiddenNeighbor direction p = some wid) : singleTile p = true
      ∧ wid ∈ Stack.integrate' p.windowSet.current.workspace.stack ∧ sameMode p wid = true
      ∧ some wid ≠ p.windowSet.peek := by
  simp only [hiddenNeighbor, Option.bind_eq_bind, Option.bind_eq_some_iff] at h
  obtain ⟨focus, hfocus, index, hindex, h⟩ := h
  have hstep : (index : Int) + (if direction ∈ [Direction.goRight, Direction.goDown] then 1 else -1)
      ≠ index := by split <;> omega
  generalize (index : Int) + (if direction ∈ [Direction.goRight, Direction.goDown] then 1 else -1)
    = next at h hstep
  split at h
  · next hcond =>
    have hmem := List.mem_filter.mp (List.mem_of_getElem? h)
    refine ⟨hcond.1, hmem.1, hmem.2, fun heq => ?_⟩
    -- The neighbour is at another place than the focused window.
    rw [hfocus, Option.some.injEq] at heq
    subst heq
    have hnd := (hs.stack_nodup p.windowSet.current_mem_workspaces).filter (sameMode p)
    obtain ⟨hlt, hat, -⟩ := List.idxOf?_eq_some_iff.mp hindex
    have hplace := (List.getElem?_inj (List.getElem?_eq_some_iff.mp h).1 hnd).mp
      (h.trans (List.getElem?_eq_some_iff.mpr ⟨hlt, hat⟩).symm)
    have hnonneg := hcond.2.2.1
    omega
  · contradiction

/-- Two windows are of a mode when both float or both are tiled. -/
theorem sameMode_iff {p : Policy} {w wid : WindowId} (hw : p.windowSet.peek = some w) :
    sameMode p wid = true ↔ isFloat p wid = isFloat p w := by
  simp [sameMode, hw]

/-- A window that is found is on a displayed workspace. -/
theorem Found.exists_screen {direction : Direction} {p : Policy} (hs : p.windowSet.WellFormed)
    {wid : WindowId} (h : Found direction p (.toWindow wid)) :
    ∃ sc ∈ p.windowSet.screens, wid ∈ Stack.integrate' sc.workspace.stack := by
  cases h with
  | hidden _ hhidden =>
      exact ⟨_, p.windowSet.current_mem_screens, (hiddenNeighbor_spec hs hhidden).2.1⟩
  | window _ q _ _ hq hvis =>
      obtain ⟨sc, hsc, -, hmem⟩ := exists_screen_of_placement hs hq hvis
      exact ⟨sc, hsc, hmem⟩

end XmonadWayland
