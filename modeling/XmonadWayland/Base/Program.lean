import Mathlib.Data.List.Basic

/-!
# XmonadWayland.Base.Program

Programs that read and change a state and may raise an error.  What was changed before an error
stays changed.  `Program.wp` is the weakest precondition: what must hold before, so that `Q` holds
of the result and `E` of an error raised.
-/

namespace XmonadWayland

/-- The state is kept when an error is raised. -/
abbrev Program (σ ε α : Type) : Type := ExceptT ε (StateM σ) α

namespace Program

variable {σ ε α β : Type}

def wp (m : Program σ ε α) (Q : α → σ → Prop) (E : ε → σ → Prop) (s : σ) : Prop :=
  match m.run s with
  | (.ok a, s') => Q a s'
  | (.error e, s') => E e s'

/-- What comes of a program; an error is not raised again. -/
def attempt (m : Program σ ε α) : Program σ ε (Except ε α) := fun s => (.ok (m s).1, (m s).2)

variable {Q Q' : α → σ → Prop} {E E' : ε → σ → Prop} {s : σ}

/-- A run that ends well is judged by the postcondition. -/
theorem wp_of_ok {m : Program σ ε α} {a : α} {s' : σ} (hrun : m s = (.ok a, s')) (h : Q a s') :
    wp m Q E s := by
  unfold wp
  rw [show m.run s = _ from hrun]
  exact h

/-- A run that raises is judged by the condition on errors. -/
theorem wp_of_error {m : Program σ ε α} {e : ε} {s' : σ} (hrun : m s = (.error e, s'))
    (h : E e s') : wp m Q E s := by
  unfold wp
  rw [show m.run s = _ from hrun]
  exact h

/-- The rule for a result. -/
theorem wp_pure (a : α) (h : Q a s) : wp (pure a : Program σ ε α) Q E s := h

/-- The rule for a sequence: the first part must make the second safe. -/
theorem wp_bind {m : Program σ ε β} {f : β → Program σ ε α}
    (h : wp m (fun b => wp (f b) Q E) E s) : wp (m >>= f) Q E s := by
  unfold wp at h ⊢
  rcases hm : m.run s with ⟨result, s'⟩
  have hrun : (m >>= f).run s = ExceptT.bindCont f result s' := by
    change ExceptT.bindCont f (m.run s).1 (m.run s).2 = _
    rw [hm]
  rw [hm] at h
  rw [hrun]
  cases result with
  | ok b => exact h
  | error e => exact h

/-- Conditions may be weakened. -/
theorem wp_mono {m : Program σ ε α} (h : wp m Q E s) (hQ : ∀ a s', Q a s' → Q' a s')
    (hE : ∀ e s', E e s' → E' e s') : wp m Q' E' s := by
  unfold wp at h ⊢
  split at h
  · exact hQ _ _ h
  · exact hE _ _ h

/-- What the postcondition says of a run that ended well. -/
theorem of_ok {m : Program σ ε α} {a : α} {s' : σ} (h : wp m Q E s) (hrun : m s = (.ok a, s')) :
    Q a s' := by
  unfold wp at h
  rw [show m.run s = _ from hrun] at h
  exact h

/-- What the condition on errors says of a run that raised. -/
theorem of_error {m : Program σ ε α} {e : ε} {s' : σ} (h : wp m Q E s)
    (hrun : m s = (.error e, s')) : E e s' := by
  unfold wp at h
  rw [show m.run s = _ from hrun] at h
  exact h

/-- What holds of every outcome holds of the state. -/
theorem after {m : Program σ ε α} {P : σ → Prop} (h : wp m (fun _ => P) (fun _ => P) s) :
    P (m.run s).2 := by
  unfold wp at h
  split at h
  · next hrun => exact (congrArg (fun r => P r.2) hrun).mpr h
  · next hrun => exact (congrArg (fun r => P r.2) hrun).mpr h

/-- The rule for reading the state. -/
theorem wp_get {Q : σ → σ → Prop} (h : Q s s) : wp (get : Program σ ε σ) Q E s := h

/-- The rule for changing the state. -/
theorem wp_modify {f : σ → σ} {Q : PUnit → σ → Prop} (h : Q ⟨⟩ (f s)) :
    wp (modify f : Program σ ε PUnit) Q E s := h

/-- The rule for catching: both outcomes are results. -/
theorem wp_attempt {m : Program σ ε α} {Q : Except ε α → σ → Prop}
    (h : wp m (fun a => Q (.ok a)) (fun e => Q (.error e)) s) : wp m.attempt Q E s := by
  unfold wp at h
  split at h
  · next hrun => exact (congrArg (fun r => Q r.1 r.2) hrun).mpr h
  · next hrun => exact (congrArg (fun r => Q r.1 r.2) hrun).mpr h

/-- The rule for a choice: each branch may use its condition. -/
theorem wp_ite {c : Prop} [Decidable c] {m m' : Program σ ε α} (h : c → wp m Q E s)
    (h' : ¬c → wp m' Q E s) : wp (if c then m else m') Q E s := by
  split
  · next hc => exact h hc
  · next hc => exact h' hc

end Program

end XmonadWayland
