import XmonadWayland.StackSet
import XmonadWayland.Base.Lists

/-!
# XmonadWayland.StackSet.Cursor

Facts about a single `Stack`: which list it flattens to, what moving or swapping
the focus does to that list, and that rotating the focus upwards reaches every
element within one turn.
-/

namespace XmonadWayland

namespace Stack

variable {α : Type}

/-! ## Flattening -/

/-- A stack holds its focus, what is above and what is below. -/
@[simp] theorem mem_integrate {a : α} {st : Stack α} :
    a ∈ st.integrate ↔ a = st.focus ∨ a ∈ st.up ∨ a ∈ st.down := by
  obtain ⟨f, u, d⟩ := st
  simp only [integrate, List.mem_append, List.mem_reverse, List.mem_cons]
  exact or_left_comm

/-- The focus is in the stack. -/
theorem focus_mem_integrate (st : Stack α) : st.focus ∈ st.integrate := by simp

/-- A stack up to the order of its windows. -/
theorem integrate_perm (st : Stack α) : st.integrate.Perm (st.focus :: (st.up ++ st.down)) := by
  obtain ⟨f, u, d⟩ := st
  exact List.perm_middle.trans ((u.reverse_perm.append_right d).cons f)

/-- The focus counts once. -/
theorem length_integrate (st : Stack α) :
    st.integrate.length = st.up.length + st.down.length + 1 := by
  rw [st.integrate_perm.length_eq]
  simp

/-! ## Filtering -/

/-- Filtering a stack filters its list. -/
theorem integrate'_filter (p : α → Bool) (st : Stack α) :
    integrate' (st.filter p) = st.integrate.filter p := by
  obtain ⟨f, u, d⟩ := st
  simp only [filter, integrate, List.filter_append, List.filter_reverse]
  cases h : (f :: d).filter p with
  | cons f' d' => simp [integrate', integrate]
  | nil =>
      cases hu : u.filter p with
      | nil => simp [integrate']
      | cons f' u' => simp [integrate', integrate]

/-- The focus stays when it passes the filter. -/
theorem filter_of_focus {p : α → Bool} {st : Stack α} (h : p st.focus) :
    st.filter p = some ⟨st.focus, st.up.filter p, st.down.filter p⟩ := by
  obtain ⟨f, u, d⟩ := st
  simp only [filter, List.filter_cons_of_pos h]

/-! ## Moving the focus -/

/-- Reversing a stack reverses the order of its windows. -/
@[simp] theorem integrate_reverseStack (st : Stack α) :
    st.reverseStack.integrate = st.integrate.reverse := by
  obtain ⟨f, u, d⟩ := st
  simp [reverseStack, integrate]

/-- Moving the focus up keeps the order. -/
@[simp] theorem integrate_focusUp' (st : Stack α) : st.focusUp'.integrate = st.integrate := by
  obtain ⟨f, u, d⟩ := st
  cases u with
  | cons l u => simp [focusUp', integrate]
  | nil =>
      cases h : (f :: d).reverse with
      | nil => simp at h
      | cons x xs =>
          simp only [focusUp', h, integrate]
          rw [← List.reverse_cons, ← h, List.reverse_reverse]
          rfl

/-- Moving the focus down keeps the order. -/
@[simp] theorem integrate_focusDown' (st : Stack α) : st.focusDown'.integrate = st.integrate := by
  simp [focusDown']

/-! ## Swapping -/

/-- Swapping up keeps the windows. -/
theorem integrate_swapUp'_perm (st : Stack α) : st.swapUp'.integrate.Perm st.integrate := by
  obtain ⟨f, u, d⟩ := st
  cases u with
  | cons l u =>
      simp only [swapUp', integrate, List.reverse_cons, List.append_assoc, List.singleton_append]
      exact (List.Perm.swap l f d).append_left _
  | nil =>
      simp only [swapUp', integrate, List.reverse_reverse, List.reverse_nil, List.nil_append]
      exact List.perm_append_singleton f d

/-- Swapping down keeps the windows. -/
theorem integrate_swapDown'_perm (st : Stack α) : st.swapDown'.integrate.Perm st.integrate := by
  simp only [swapDown', integrate_reverseStack]
  have h := (integrate_swapUp'_perm st.reverseStack).trans
    (List.Perm.of_eq (integrate_reverseStack st))
  exact (List.reverse_perm _).trans (h.trans (List.reverse_perm _))

/-- Swapping with the master keeps the windows. -/
theorem integrate_swapMaster'_perm (st : Stack α) :
    st.swapMaster'.integrate.Perm st.integrate := by
  obtain ⟨f, u, d⟩ := st
  cases u with
  | nil => exact List.Perm.refl _
  | cons l u =>
      cases h : (l :: u).reverse with
      | nil => simp at h
      | cons x xs =>
          simp only [swapMaster', h, integrate, List.reverse_nil, List.nil_append]
          have hmid : (f :: (xs ++ x :: d)).Perm (f :: x :: (xs ++ d)) :=
            List.perm_middle.cons f
          have hswap : (f :: x :: (xs ++ d)).Perm (x :: f :: (xs ++ d)) := List.Perm.swap x f _
          have hback : (x :: f :: (xs ++ d)).Perm (x :: (xs ++ f :: d)) :=
            List.perm_middle.symm.cons x
          exact hmid.trans (hswap.trans hback)

/-! ## Rotating to an element -/

section Rotate

variable [DecidableEq α]

/-- Move the focus up until it is `w`, at most `fuel` times. -/
def untilFocus (w : α) : Nat → Stack α → Stack α
  | 0, st => st
  | fuel + 1, st => if st.focus = w then st else untilFocus w fuel st.focusUp'

/-- Looking for a window keeps the order. -/
@[simp] theorem integrate_untilFocus (w : α) (fuel : Nat) (st : Stack α) :
    (untilFocus w fuel st).integrate = st.integrate := by
  induction fuel generalizing st with
  | zero => rfl
  | succ fuel ih =>
      simp only [untilFocus]
      split
      · rfl
      · rw [ih, integrate_focusUp']

/-- Elements above the focus are reached before wrapping. -/
theorem focus_untilFocus_of_mem_up {w : α} {fuel : Nat} {st : Stack α}
    (h : w ∈ (st.focus :: st.up).take fuel) : (untilFocus w fuel st).focus = w := by
  induction fuel generalizing st with
  | zero => simp at h
  | succ fuel ih =>
      obtain ⟨f, u, d⟩ := st
      simp only [untilFocus]
      split
      · next hf => exact hf
      · next hf =>
        rw [List.take_succ_cons, List.mem_cons] at h
        have hu : w ∈ u.take fuel := h.resolve_left fun e => hf e.symm
        cases u with
        | nil => simp at hu
        | cons l u => exact ih hu

/-- Elements below the focus are reached after wrapping; `d₁` collects the elements
the focus has passed. -/
theorem focus_untilFocus_of_mem_down {w f : α} {u : List α} (d₁ : List α) {d₂ : List α}
    {fuel : Nat} (h : w ∈ d₂) (hfuel : u.length + d₂.length + 1 ≤ fuel) :
    (untilFocus w fuel ⟨f, u, d₁ ++ d₂⟩).focus = w := by
  induction u generalizing f d₁ fuel with
  | nil =>
      obtain ⟨fuel, rfl⟩ : ∃ n, fuel = n + 1 := ⟨fuel - 1, by omega⟩
      simp only [untilFocus]
      split
      · next hf => exact hf
      · have hrev : (f :: (d₁ ++ d₂)).reverse = d₂.reverse ++ (f :: d₁).reverse := by
          rw [← List.reverse_append]; rfl
        have hmem : w ∈ ((f :: (d₁ ++ d₂)).reverse).take fuel := by
          rw [hrev, List.take_append]
          refine List.mem_append_left _ ?_
          rw [List.take_of_length_le (by simp at hfuel ⊢; omega)]
          exact List.mem_reverse.mpr h
        cases hx : (f :: (d₁ ++ d₂)).reverse with
        | nil => simp at hx
        | cons x xs =>
            rw [hx] at hmem
            simp only [focusUp', hx]
            exact focus_untilFocus_of_mem_up hmem
  | cons l u ih =>
      obtain ⟨fuel, rfl⟩ : ∃ n, fuel = n + 1 := ⟨fuel - 1, by omega⟩
      simp only [untilFocus]
      split
      · next hf => exact hf
      · simp only [List.length_cons] at hfuel
        exact ih (f := l) (f :: d₁) (by omega)

/-- One full turn reaches every element. -/
theorem focus_untilFocus {w : α} {st : Stack α} (h : w ∈ st.integrate) :
    (untilFocus w st.integrate.length st).focus = w := by
  obtain ⟨f, u, d⟩ := st
  have hlen : (integrate ⟨f, u, d⟩).length = u.length + d.length + 1 := length_integrate _
  rcases mem_integrate.mp h with hf | hu | hd
  · apply focus_untilFocus_of_mem_up
    rw [hlen, List.take_succ_cons]
    exact List.mem_cons.mpr (Or.inl hf)
  · apply focus_untilFocus_of_mem_up
    rw [List.take_of_length_le (by simp only [List.length_cons]; omega)]
    exact List.mem_cons_of_mem f hu
  · exact focus_untilFocus_of_mem_down [] hd (by rw [hlen])

/-- The stack with the same list, focused on `w`. -/
def refocus (w : α) (st : Stack α) : Stack α := untilFocus w st.integrate.length st

/-- Moving the focus to a window keeps the order. -/
@[simp] theorem integrate_refocus (w : α) (st : Stack α) :
    (st.refocus w).integrate = st.integrate := integrate_untilFocus _ _ _

/-- A window in the stack gets the focus. -/
theorem focus_refocus {w : α} {st : Stack α} (h : w ∈ st.integrate) :
    (st.refocus w).focus = w := focus_untilFocus h

end Rotate

end Stack

end XmonadWayland
