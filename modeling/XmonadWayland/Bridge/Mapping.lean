import XmonadWayland.Bridge.Custody

/-!
# XmonadWayland.Bridge.Mapping

The shared memory of the picker.  Its size is not stored: clearing, drawing and
unmapping compute it from the size of the surface, which the compositor may have changed
since.  `fitted` compares what is done with what was mapped.
-/

namespace XmonadWayland.Bridge

/-! ## One mapping -/

/-- How many bytes the last allocation mapped; nothing is done outside of them. -/
def fitted (mapped : Option Nat) : OsCall → Option (Option Nat)
  | .returned _ bytes => some (some bytes)
  | .cleared bytes => mapped.bind fun m => if bytes ≤ m then some mapped else none
  | .wrote index => mapped.bind fun m => if 4 * index + 4 ≤ m then some mapped else none
  | .unmapped bytes => mapped.bind fun m => if bytes = m then some mapped else none
  | _ => some mapped

/-- The buffer of the picker fills what was mapped. -/
structure Mapped (mapped : Option Nat) (p : Picker) : Prop where
  pixels : p.overlay.pixels = p.overlay.buffer.isSome
  size : ∀ size, p.overlay.buffer = some size → mapped = some (4 * (size.1 * size.2))
    ∧ p.overlay.stride = 4 * size.1 ∧ 0 < size.1

/-- The surface may be given this size: a buffer is kept with its width and not more than
its height, and replaced with its height. -/
def Resizes (width height : Nat) (p : Picker) : Prop :=
  width ≠ 0 → height ≠ 0 → ∀ size, p.overlay.buffer = some size →
    if width = size.1 then height ≤ size.2 else height = size.2

/-- The surface has the height of its buffer. -/
def Releases (p : Picker) : Prop :=
  ∀ size, p.overlay.buffer = some size → p.overlay.height = size.2

/-- The call finds a surface whose size fits its buffer. -/
def FitsBuffer (p : Picker) : PickerCall → Prop
  | .layerConfigure width height _ => p.listeners ≠ 0 → Resizes width height p
  | .pickerHide => Releases p
  | .failed => p.active = true → Releases p
  | .finished => p.active = true → Releases p
  | _ => True

/-- Sizes the protocol can carry, and memory for them. -/
def Roomy : PickerCall → Prop
  | .layerConfigure width height a =>
    width * height * 4 < 2 ^ 31 ∧ ∃ fd, a = .shared fd true true
  | _ => True

/-! ## Drawing -/

variable {p : Picker} {mapped : Option Nat}

/-- A pixel inside the overlay is inside its mapping. -/
theorem pixelIndex_lt {overlay : PickerOverlay} (h : overlay.stride = 4 * overlay.width)
    {cx cy : Int} {index : Nat} (hindex : pixelIndex overlay cx cy = some index) :
    index < overlay.width * overlay.height := by
  unfold pixelIndex at hindex
  split at hindex
  · contradiction
  · next hinside =>
    have hrow : cy.toNat + 1 ≤ overlay.height := by omega
    have hfull := Nat.mul_le_mul_left overlay.width hrow
    have hmod := Nat.mod_le (cy.toNat * overlay.width) 4294967296
    rw [h, Nat.mul_div_cancel_left _ (by decide)] at hindex
    have hindex := Option.some.inj hindex
    rw [Nat.mul_add, Nat.mul_one, Nat.mul_comm] at hfull
    omega

/-- Only pixels of the surface are drawn. -/
theorem mem_pickerDrawLabel {s : State} {overlay : PickerOverlay} {label : PickerLabel}
    {index : Nat} (h : index ∈ pickerDrawLabel s overlay label) :
    ∃ cx cy, pixelIndex overlay cx cy = some index := by
  unfold pickerDrawLabel at h
  split at h
  · contradiction
  · split at h
    · contradiction
    · simp only [List.mem_append, List.mem_flatMap, List.mem_filterMap] at h
      rcases h with ⟨row, -, column, -, hindex⟩ | ⟨row, -, column, -, hletter⟩
      · exact ⟨_, _, hindex⟩
      · split at hletter
        · obtain ⟨py, -, hletter⟩ := List.mem_flatMap.mp hletter
          obtain ⟨px, -, hindex⟩ := List.mem_filterMap.mp hletter
          exact ⟨_, _, hindex⟩
        · contradiction

/-- The log is acceptable, and the buffer fills what was mapped. -/
def Fitted (p : Picker) : Prop :=
  ∃ mapped, runMonitor fitted none p.log = some mapped ∧ Mapped mapped p

/-- Nothing about buffer and mapping changes. -/
theorem Fitted.fields {p' : Picker} (h : Fitted p) (hlog : p'.log = p.log)
    (hpixels : p'.overlay.pixels = p.overlay.pixels)
    (hbuffer : p'.overlay.buffer = p.overlay.buffer)
    (hstride : p'.overlay.stride = p.overlay.stride) : Fitted p' := by
  obtain ⟨mapped, hrun, hm⟩ := h
  exact ⟨mapped, hlog ▸ hrun, by rw [hpixels, hbuffer, hm.pixels],
    by rw [hbuffer, hstride]; exact hm.size⟩

/-- Painting clears the whole surface. -/
theorem runMonitor_paint {m : Nat} (s : State) (hstride : p.overlay.stride = 4 * p.overlay.width)
    (hrun : runMonitor fitted none p.log = some (some m)) :
    runMonitor fitted none (pickerPaint s p).log
      = if p.overlay.stride * p.overlay.height ≤ m then some (some m) else none := by
  rw [pickerPaint, runMonitor_append, hrun, Option.bind_some, runMonitor_cons]
  by_cases hle : p.overlay.stride * p.overlay.height ≤ m
  · have hcleared : fitted (some m) (.cleared (p.overlay.stride * p.overlay.height))
        = some (some m) := by simp [fitted, hle]
    rw [hcleared, if_pos hle, Option.bind_some]
    refine runMonitor_of_fixed (List.forall_mem_map.mpr fun index hindex => ?_)
    obtain ⟨label, -, hdrawn⟩ := List.mem_flatMap.mp hindex
    obtain ⟨cx, cy, hpixel⟩ := mem_pickerDrawLabel hdrawn
    have hlt := pixelIndex_lt hstride hpixel
    rw [hstride, Nat.mul_assoc] at hle
    have hfits : 4 * index + 4 ≤ m := by omega
    simp [fitted, hfits]
  · rw [if_neg hle]
    simp [fitted, hle]

/-- Releasing unmaps what the surface covers now. -/
theorem runMonitor_release (hrun : runMonitor fitted none p.log = some mapped)
    (hm : Mapped mapped p) : runMonitor fitted none (pickerReleaseBuffer p).log
      = if p.overlay.buffer.all fun size => p.overlay.height = size.2 then some mapped else none := by
  have hclosed : runMonitor fitted mapped
      (if 0 ≤ p.overlay.fd then [.closed p.overlay.fd.toNat] else []) = some mapped := by
    split <;> rfl
  have hlog : (pickerReleaseBuffer p).log = p.log ++ releaseCalls p.overlay := rfl
  rw [hlog, runMonitor_append, hrun, Option.bind_some, releaseCalls, runMonitor_append, hm.pixels]
  cases hbuffer : p.overlay.buffer with
  | none => exact hclosed
  | some size =>
      obtain ⟨rfl, hstride, hpos⟩ := hm.size size hbuffer
      rw [Option.isSome_some, if_pos rfl, runMonitor_singleton, hstride, Nat.mul_assoc]
      by_cases hheight : p.overlay.height = size.2
      · simp [fitted, hheight, hclosed]
      · have hne : 4 * (size.1 * p.overlay.height) ≠ 4 * (size.1 * size.2) := by
          intro heq
          exact hheight (Nat.eq_of_mul_eq_mul_left hpos (Nat.eq_of_mul_eq_mul_left (by decide) heq))
        simp [fitted, hheight, hne]

/-- The buffer is released exactly when its height is the overlay's. -/
theorem releases_iff : Releases p ↔ (p.overlay.buffer.all fun size => p.overlay.height = size.2) := by
  unfold Releases
  cases p.overlay.buffer <;> simp

/-- A hide that releases keeps the mapping fitted. -/
theorem Fitted.hide (h : Fitted p) (hr : Releases p) : Fitted (xwPickerHide p) := by
  obtain ⟨mapped, hrun, hm⟩ := h
  have hreleased := runMonitor_release hrun hm
  rw [if_pos (releases_iff.mp hr)] at hreleased
  exact ⟨mapped, hreleased, rfl, nofun⟩

/-- One that does not releases a mapping of another length. -/
theorem not_fitted_hide (h : Fitted p) (hr : ¬Releases p) :
    runMonitor fitted none (xwPickerHide p).log = none := by
  obtain ⟨mapped, hrun, hm⟩ := h
  have hreleased := runMonitor_release hrun hm
  rw [if_neg (mt releases_iff.mpr hr)] at hreleased
  exact hreleased

/-- A new buffer of the size of the surface. -/
theorem runMonitor_allocate (fd : Nat) (hrun : runMonitor fitted none p.log = some mapped)
    (hm : Mapped mapped p) :
    let stride := 4 * p.overlay.width
    let p' := pickerAllocate stride (.shared fd true true) p
    runMonitor fitted none p'.log
        = (if p.overlay.buffer.all fun size => p.overlay.height = size.2 then
          some (some (stride * p.overlay.height)) else none)
      ∧ p'.overlay.buffer = some (p.overlay.width, p.overlay.height)
      ∧ p'.overlay.pixels = true ∧ p'.overlay.stride = stride
      ∧ p'.overlay.width = p.overlay.width ∧ p'.overlay.height = p.overlay.height := by
  intro stride p'
  refine ⟨?_, rfl, rfl, rfl, rfl, rfl⟩
  have hlog : p'.log = (pickerReleaseBuffer p).log
      ++ [.opened fd, .returned fd (stride * p.overlay.height)] := rfl
  rw [hlog, runMonitor_append, runMonitor_release hrun hm]
  split <;> rfl

/-- Drawing a surface for which there is memory. -/
theorem pickerRedraw_eq {fd : Nat} (s : State) (hconfigured : p.overlay.configured = true)
    (hw : p.overlay.width ≠ 0) (hh : p.overlay.height ≠ 0)
    (hroom : p.overlay.width * p.overlay.height * 4 < 2 ^ 31) :
    pickerRedraw s (.shared fd true true) p
      = if p.overlay.buffer = none ∨ p.overlay.stride ≠ 4 * p.overlay.width then
          pickerPaint s (pickerAllocate (4 * p.overlay.width) (.shared fd true true) p)
        else pickerPaint s p := by
  have hle : p.overlay.width * 1 ≤ p.overlay.width * p.overlay.height :=
    Nat.mul_le_mul_left _ (Nat.one_le_iff_ne_zero.mpr hh)
  have hstride : p.overlay.width * 4 % 4294967296 = 4 * p.overlay.width := by omega
  unfold pickerRedraw
  simp only [hconfigured, hw, hh, hstride, Bool.not_true, Bool.false_eq_true, or_self, if_false]
  rfl

/-- A new buffer is painted inside its mapping. -/
theorem runMonitor_renew (fd : Nat) (s : State)
    (hrun : runMonitor fitted none p.log = some mapped) (hm : Mapped mapped p) :
    runMonitor fitted none
        (pickerPaint s (pickerAllocate (4 * p.overlay.width) (.shared fd true true) p)).log
      = if p.overlay.buffer.all fun size => p.overlay.height = size.2 then
          some (some (4 * p.overlay.width * p.overlay.height)) else none := by
  obtain ⟨hallocated, -, -, hstride, hwidth, hheight⟩ := runMonitor_allocate fd hrun hm
  split
  · next hfits =>
    rw [if_pos hfits] at hallocated
    have hpainted := runMonitor_paint s (hstride.trans (hwidth ▸ rfl)) hallocated
    rwa [hstride, hheight, if_pos (Nat.le_refl _)] at hpainted
  · next hfits =>
    rw [if_neg hfits] at hallocated
    rw [pickerPaint, runMonitor_append, hallocated]
    rfl

/-- A new buffer fills its mapping. -/
theorem mapped_renew (fd : Nat) (s : State) (hw : p.overlay.width ≠ 0) :
    Mapped (some (4 * p.overlay.width * p.overlay.height))
      (pickerPaint s (pickerAllocate (4 * p.overlay.width) (.shared fd true true) p)) := by
  refine ⟨rfl, fun size hsize => ?_⟩
  obtain rfl : (p.overlay.width, p.overlay.height) = size := Option.some.inj hsize
  exact ⟨by rw [Nat.mul_assoc], rfl, Nat.pos_of_ne_zero hw⟩

/-- A buffer that is kept is painted inside its mapping if the surface is not higher. -/
theorem runMonitor_repaint (s : State) (hrun : runMonitor fitted none p.log = some mapped)
    (hm : Mapped mapped p) {size : Nat × Nat} (hbuffer : p.overlay.buffer = some size)
    (hsame : p.overlay.width = size.1) :
    runMonitor fitted none (pickerPaint s p).log
      = if p.overlay.height ≤ size.2 then some mapped else none := by
  obtain ⟨rfl, hstride, hpos⟩ := hm.size size hbuffer
  have hpainted := runMonitor_paint s (hsame ▸ hstride) hrun
  have hle : p.overlay.stride * p.overlay.height ≤ 4 * (size.1 * size.2)
      ↔ p.overlay.height ≤ size.2 := by
    rw [hstride, Nat.mul_assoc, Nat.mul_le_mul_left_iff (by decide), Nat.mul_le_mul_left_iff hpos]
  rw [hpainted, if_congr hle rfl rfl]

/-- What the surface was resized to decides. -/
theorem fitted_redraw (s : State) (fd : Nat) (h : Fitted p)
    (hconfigured : p.overlay.configured = true)
    (hroom : p.overlay.width * p.overlay.height * 4 < 2 ^ 31) :
    (Resizes p.overlay.width p.overlay.height p →
        Fitted (pickerRedraw s (.shared fd true true) p))
      ∧ (¬Resizes p.overlay.width p.overlay.height p →
        runMonitor fitted none (pickerRedraw s (.shared fd true true) p).log = none) := by
  by_cases hzero : p.overlay.width = 0 ∨ p.overlay.height = 0
  · have hskip : pickerRedraw s (.shared fd true true) p = p := if_pos (Or.inr hzero)
    rw [hskip]
    refine ⟨fun _ => h, fun hr => absurd (fun hw hh => ?_) hr⟩
    exact absurd hzero (not_or.mpr ⟨hw, hh⟩)
  obtain ⟨hw, hh⟩ := not_or.mp hzero
  obtain ⟨mapped, hrun, hm⟩ := h
  rw [pickerRedraw_eq s hconfigured hw hh hroom]
  have hrenew := runMonitor_renew fd s hrun hm
  cases hbuffer : p.overlay.buffer with
  | none =>
      rw [if_pos (Or.inl rfl)]
      rw [hbuffer] at hrenew
      refine ⟨fun _ => ⟨_, hrenew, mapped_renew fd s hw⟩, fun hr => absurd (fun _ _ size hsize => ?_) hr⟩
      rw [hbuffer] at hsize
      contradiction
  | some size =>
      have hresizes : Resizes p.overlay.width p.overlay.height p ↔
          if p.overlay.width = size.1 then p.overlay.height ≤ size.2 else p.overlay.height = size.2 := by
        unfold Resizes
        simp [hw, hh, hbuffer]
      have hstride := (hm.size size hbuffer).2.1
      rw [hresizes, hstride]
      by_cases hsame : p.overlay.width = size.1
      · have hrepaint := runMonitor_repaint s hrun hm hbuffer hsame
        have hkeep : ¬(some size = none ∨ 4 * size.1 ≠ 4 * p.overlay.width) := by simp [hsame]
        rw [if_neg hkeep, if_pos hsame]
        refine ⟨fun hr => ⟨mapped, ?_, hm.pixels, hm.size⟩, fun hr => ?_⟩
        · rw [hrepaint, if_pos hr]
        · rw [hrepaint, if_neg hr]
      · have hne : 4 * size.1 ≠ 4 * p.overlay.width := by omega
        rw [if_pos (Or.inr hne), if_neg hsame]
        rw [hbuffer] at hrenew
        refine ⟨fun hr => ⟨_, ?_, mapped_renew fd s hw⟩, fun hr => ?_⟩
        · rw [hrenew, Option.all_some, if_pos (decide_eq_true hr)]
        · rw [hrenew, Option.all_some, if_neg (by simpa using hr)]

/-! ## Every sequence of calls -/

/-- One call, if there is memory for it. -/
theorem fitted_call (s : State) {c : PickerCall} (h : Fitted p) (hroom : Roomy c) :
    (FitsBuffer p c → Fitted (p.call s c))
      ∧ (¬FitsBuffer p c → runMonitor fitted none (p.call s c).log = none) := by
  have hwithdraw : ((p.active = true → Releases p) → Fitted (pickerWithdraw p))
      ∧ (¬(p.active = true → Releases p) →
        runMonitor fitted none (pickerWithdraw p).log = none) := by
    unfold pickerWithdraw
    split
    · next hactive =>
      exact ⟨fun hr => h.hide (hr hactive), fun hr => not_fitted_hide h fun hr' => hr fun _ => hr'⟩
    · next hidle => exact ⟨fun _ => h, fun hr => absurd (fun hactive => absurd hactive hidle) hr⟩
  cases c with
  | bindCompositor bound => exact ⟨fun _ => h.fields rfl rfl rfl rfl, fun hr => absurd trivial hr⟩
  | bindShm bound => exact ⟨fun _ => h.fields rfl rfl rfl rfl, fun hr => absurd trivial hr⟩
  | bindWlrLayerShell bound =>
      exact ⟨fun _ => h.fields rfl rfl rfl rfl, fun hr => absurd trivial hr⟩
  | pickerShow count creation =>
      refine ⟨fun _ => ?_, fun hr => absurd trivial hr⟩
      simp only [Picker.call, xwPickerShow]
      split
      · exact h.fields rfl rfl rfl rfl
      · exact h.fields rfl rfl rfl rfl
      · exact h.fields rfl rfl rfl rfl
      · exact h
  | pickerLabel index label =>
      refine ⟨fun _ => ?_, fun hr => absurd trivial hr⟩
      simp only [Picker.call, xwPickerLabel]
      split
      · exact h
      · exact h.fields rfl rfl rfl rfl
  | pickerHide => exact ⟨h.hide, not_fitted_hide h⟩
  | layerConfigure width height a =>
      obtain ⟨hsize, fd, rfl⟩ := hroom
      simp only [Picker.call, pickerLayerConfigure, FitsBuffer]
      by_cases hnone : p.listeners = 0
      · rw [if_pos hnone]
        exact ⟨fun _ => h, fun hr => absurd (fun hne => absurd hnone hne) hr⟩
      · rw [if_neg hnone]
        have hsized : Fitted { p with overlay := { p.overlay with
            width := width, height := height, configured := true } } := h.fields rfl rfl rfl rfl
        obtain ⟨hgood, hbad⟩ := fitted_redraw s fd hsized rfl hsize
        exact ⟨fun hr => hgood (hr hnone), fun hr => hbad fun hr' => hr fun _ => hr'⟩
  | layerClosed =>
      refine ⟨fun _ => ?_, fun hr => absurd trivial hr⟩
      simp only [Picker.call, pickerLayerClosed]
      split
      · exact h
      · exact h.fields rfl rfl rfl rfl
  | failed => exact hwithdraw
  | finished => exact hwithdraw

end XmonadWayland.Bridge

namespace XmonadWayland

open Bridge

/-- Clearing, drawing and unmapping stay inside the last mapping, and all of it is
unmapped. -/
def WithinMapping (log : List OsCall) : Prop := (runMonitor fitted none log).isSome

/-- **Shared memory of the picker**: whatever is called in whatever states of the bridge,
as long as there is memory, the picker stays inside its mapping and unmaps all of it
exactly if every call finds a surface whose size fits its buffer. -/
theorem within_mapping_iff {calls : List (Bridge.State × PickerCall)}
    (hroom : ∀ c ∈ calls, Roomy c.2) :
    WithinMapping (runPicker calls).log ↔ ∀ earlier c later, calls = earlier ++ c :: later →
      FitsBuffer (runPicker earlier) c.2 := by
  have hnil : ∃ mapped, runMonitor fitted none (runPicker []).log = some mapped
      ∧ Mapped mapped (runPicker []) := ⟨none, rfl, rfl, nofun⟩
  have hgood : ∀ (calls : List (Bridge.State × PickerCall)) (c : Bridge.State × PickerCall)
      (mapped : Option Nat), Roomy c.2 →
      runMonitor fitted none (runPicker calls).log = some mapped → Mapped mapped (runPicker calls) →
      FitsBuffer (runPicker calls) c.2 → Fitted (runPicker (calls ++ [c])) :=
    fun calls c mapped hc hrun hm hfits => runPicker_snoc calls c.1 c.2 ▸
      (fitted_call c.1 ⟨mapped, hrun, hm⟩ hc).1 hfits
  constructor
  · intro hwithin
    exact good_of_runMonitor (fun calls => (runPicker calls).log) hnil
      (fun calls c => runPicker_snoc calls c.1 c.2 ▸ log_call (runPicker calls) c.1 c.2) hgood
      (fun calls c mapped hc hrun hm hbad => runPicker_snoc calls c.1 c.2 ▸
        (fitted_call c.1 ⟨mapped, hrun, hm⟩ hc).2 hbad) calls hroom hwithin
  · intro hfits
    obtain ⟨mapped, hrun, -⟩ := runMonitor_of_good (fun calls => (runPicker calls).log) hnil hgood
      calls hroom hfits
    exact Option.isSome_iff_exists.mpr ⟨mapped, hrun⟩

/-- The calls of an overlay for which there is memory, from its showing on. -/
def overlayCalls (sizes : List (Nat × Nat)) : List (Bridge.State × PickerCall) :=
  let s : Bridge.State := { outputs := [{ id := 1, announced := true, hasDimensions := true }] }
  [(s, .bindCompositor true), (s, .bindShm true), (s, .bindWlrLayerShell true),
    (s, .pickerShow 1 .created)]
  ++ sizes.map fun size => (s, .layerConfigure size.1 size.2 (.shared 3 true true))

/-- Widening at one height fits the buffer. -/
theorem overlay_fits_widened : FitsBuffer (runPicker (overlayCalls [(800, 600)]))
    (.layerConfigure 1024 600 (.shared 3 true true)) := by
  have hroom : ∀ c ∈ overlayCalls [(800, 600), (1024, 600)], Roomy c.2 := by
    simp [overlayCalls, Roomy]
  have hwithin : WithinMapping (runPicker (overlayCalls [(800, 600), (1024, 600)])).log := by
    unfold WithinMapping
    decide +kernel
  exact (within_mapping_iff hroom).mp hwithin (overlayCalls [(800, 600)]) (_, _) [] rfl

/-- A surface that only grows in height is cleared past the end of its mapping. -/
theorem overlay_grows_past_mapping :
    (∀ c ∈ overlayCalls [(800, 600), (800, 700)], Roomy c.2)
      ∧ ¬WithinMapping (runPicker (overlayCalls [(800, 600), (800, 700)])).log := by
  refine ⟨by simp [overlayCalls, Roomy], ?_⟩
  unfold WithinMapping
  decide +kernel

end XmonadWayland
