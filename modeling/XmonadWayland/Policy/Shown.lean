import XmonadWayland.Policy.Geometry

/-!
# XmonadWayland.Policy.Shown

What the current screen shows, in its work area: every tile where the layout puts it,
every floating window where `pointerFloatRect` puts it.
-/

namespace XmonadWayland

open StackSet

variable {p : Policy} {area : Rect}

/-- The work area of the current screen is the area its windows are placed in. -/
theorem exists_output_of_currentArea (h : currentArea p = some area) :
    ∃ rect, screenOutput p p.windowSet.current = some rect
      ∧ screenArea p rect p.windowSet.current.screen = area := screenOutput_of_area h

/-- The current area is that of the current output. -/
theorem currentArea_of_output {rect : Rect}
    (h : screenOutput p p.windowSet.current = some rect) :
    currentArea p = some (screenArea p rect p.windowSet.current.screen) := area_of_screenOutput h

/-- It is normal. -/
theorem normal_currentArea (hn : OutputsNormal p) (h : currentArea p = some area) : Normal area := by
  obtain ⟨rect, hrect, rfl⟩ := exists_output_of_currentArea h
  obtain ⟨oid, -, hout⟩ := Option.bind_eq_some_iff.mp hrect
  exact (hn oid rect hout).within (within_screenArea p (hn oid rect hout) _)

/-- Pointer bookkeeping keeps it. -/
theorem currentArea_frame {p' : Policy} (h : PointerFrame p p') :
    currentArea p' = currentArea p := by
  unfold currentArea focusedOutput
  rw [h.windowSet]
  exact congrArg _ (funext h.areaFor)

section Current

variable {stack : Stack WindowId} (hs : p.windowSet.WellFormed) (harea : currentArea p = some area)
  (hstack : p.windowSet.current.workspace.stack = some stack)
  (hfull : (metadataFor p stack.focus).windowFullscreen = false)

include hs harea hstack hfull

/-- The windows of the current screen are placed in its work area. -/
theorem rectangles_current {wid : WindowId} {r : Rect}
    (h : (wid, r) ∈ tiledRects p p.windowSet.current area stack ++ floatRects p area stack) :
    (rectangles p)[wid]? = some (r, p.windowSet.current.screen, isFloat p wid, false) := by
  obtain ⟨rect, hrect, rfl⟩ := exists_output_of_currentArea harea
  refine (getElem?_rectangles hs).mpr ⟨_, p.windowSet.current_mem_screens, ?_⟩
  rw [screenRects_tiled hrect hstack (by simp [hfull])]
  exact List.mem_map_of_mem h

/-- A tile is placed where its layout says. -/
theorem windowRect_tile {wid : WindowId} {r : Rect}
    (h : (wid, r) ∈ tiledRects p p.windowSet.current area stack) : windowRect wid p = some r := by
  rw [windowRect_eq hs, rectangles_current hs harea hstack hfull (List.mem_append_left _ h)]
  rfl

/-- A floating window is placed at its float rectangle. -/
theorem windowRect_float {wid : WindowId} (hwid : wid ∈ stack.integrate)
    (hfloat : isFloat p wid = true) : windowRect wid p = some (pointerFloatRect p wid area) := by
  have hmem : (wid, pointerFloatRect p wid area) ∈ floatRects p area stack :=
    List.mem_map_of_mem (List.mem_filter.mpr ⟨hwid, hfloat⟩)
  rw [windowRect_eq hs, rectangles_current hs harea hstack hfull (List.mem_append_right _ hmem)]
  rfl

end Current

end XmonadWayland
