import Mathlib.Algebra.Order.Ring.Rat
import Mathlib.Data.List.Basic
import Mathlib.Tactic.Linarith

/-!
# XmonadWayland.Base.Spans

Spans of pixels along one axis: a start and a size of at least one.  A span fits
another when it lies inside it.  Clamping a start between the first and the last
possible one makes a span fit.
-/

namespace XmonadWayland

/-- The span of `size` pixels from `start` is not empty and lies inside the span of
`extent` pixels from `origin`. -/
structure Fits (start size origin extent : Int) : Prop where
  lower : origin ≤ start
  pos : 1 ≤ size
  upper : start + size ≤ origin + extent

namespace Fits

variable {start size origin extent : Int}

theorem refl (h : 1 ≤ size) : Fits start size start size := ⟨le_refl _, h, le_refl _⟩

theorem trans {origin' extent' : Int} (h : Fits start size origin extent)
    (h' : Fits origin extent origin' extent') : Fits start size origin' extent' :=
  ⟨h'.lower.trans h.lower, h.pos, h.upper.trans h'.upper⟩

/-- A span fits wherever the whole is moved to. -/
theorem shift (h : Fits start size 0 extent) (origin : Int) :
    Fits (origin + start) size origin extent := by
  obtain ⟨h1, h2, h3⟩ := h
  exact ⟨by omega, h2, by omega⟩

/-- What fits is no longer than what it fits into. -/
theorem size_le (h : Fits start size origin extent) : size ≤ extent := by
  obtain ⟨h1, h2, h3⟩ := h
  omega

end Fits

/-- A start clamped into the room left by the size fits. -/
theorem fits_clamp {start size origin extent : Int} (hpos : 1 ≤ size) (hle : size ≤ extent) :
    Fits (max origin (min (origin + extent - size) start)) size origin extent :=
  ⟨by omega, hpos, by omega⟩

/-- Clamping a start that fits changes nothing. -/
theorem clamp_of_fits {start size origin extent : Int} (h : Fits start size origin extent) :
    max origin (min (origin + extent - size) start) = start := by
  obtain ⟨h1, h2, h3⟩ := h
  omega

/-- A clamp to a range is the identity on the range. -/
theorem clamp_of_mem {lo hi v : Int} (hlo : lo ≤ v) (hhi : v ≤ hi) : max lo (min hi v) = v := by
  omega

/-- A clamped value lies between the bounds. -/
theorem clamp_mem {lo hi : Int} (h : lo ≤ hi) (v : Int) :
    lo ≤ max lo (min hi v) ∧ max lo (min hi v) ≤ hi := by
  omega

/-- Running sums of positive weights are nonnegative. -/
theorem scanl_add_nonneg {weights : List ℚ} (h : ∀ w ∈ weights, 0 ≤ w) {a : ℚ} (ha : 0 ≤ a) :
    ∀ e ∈ weights.scanl (· + ·) a, 0 ≤ e := by
  induction weights generalizing a with
  | nil =>
      intro e he
      rw [List.scanl_nil, List.mem_singleton] at he
      exact he ▸ ha
  | cons w weights ih =>
      intro e he
      rw [List.scanl_cons, List.mem_cons] at he
      rcases he with rfl | he
      · exact ha
      · have hw := h w List.mem_cons_self
        exact ih (fun x hx => h x (List.mem_cons_of_mem w hx)) (by linarith) e he

end XmonadWayland
