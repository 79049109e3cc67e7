import XmonadWayland.Base.Monitor

/-!
# XmonadWayland.Base.Runs

Runs of a system with a partial step function, as `runMonitor` performs them: what every
step keeps, what every step keeps until the run passes a state of another kind.
-/

namespace XmonadWayland

variable {σ ε : Type} {m : σ → ε → Option σ} {s t : σ}

/-- The run passes a state with the property; its first and its last state count. -/
def Passes (m : σ → ε → Option σ) (s : σ) (R : σ → Prop) (moves : List ε) : Prop :=
  ∃ earlier later r, moves = earlier ++ later ∧ runMonitor m s earlier = some r ∧ R r

/-- A run that passed a state still did when it goes on. -/
theorem Passes.append {R : σ → Prop} {moves : List ε} (h : Passes m s R moves) (more : List ε) :
    Passes m s R (moves ++ more) := by
  obtain ⟨earlier, later, r, heq, hrun, hr⟩ := h
  exact ⟨earlier, later ++ more, r, by rw [heq, List.append_assoc], hrun, hr⟩

/-- A state that is reached is passed. -/
theorem passes_of_run {R : σ → Prop} {moves : List ε} (hrun : runMonitor m s moves = some t)
    (hr : R t) : Passes m s R moves :=
  ⟨moves, [], t, (List.append_nil moves).symm, hrun, hr⟩

/-- An invariant of the steps holds along the run, unless the run passes the other property.
A step may rely on where in the run it is taken. -/
theorem runMonitor_unless {I R : σ → Prop} {moves : List ε}
    (hstep : ∀ earlier e later r r', moves = earlier ++ e :: later →
      runMonitor m s earlier = some r → m r e = some r' → I r → I r' ∨ R r')
    (hrun : runMonitor m s moves = some t) (hs : I s) : I t ∨ Passes m s R moves := by
  induction moves using List.reverseRecOn generalizing t with
  | nil =>
      obtain rfl := Option.some.inj hrun
      exact Or.inl hs
  | append_singleton moves e ih =>
      obtain ⟨r, hr, hlast⟩ := runMonitor_snoc hrun
      have hbefore := ih (fun earlier e' later r r' heq => hstep earlier e' (later ++ [e]) r r'
        (by rw [heq, List.append_assoc, List.cons_append])) hr
      rcases hbefore with hI | hpassed
      · exact (hstep moves e [] r t rfl hr hlast hI).imp id fun hR => passes_of_run hrun hR
      · exact Or.inr (hpassed.append [e])

/-- What the steps of the run keep. -/
theorem runMonitor_keeps {I : σ → Prop} {moves : List ε}
    (hstep : ∀ e ∈ moves, ∀ r r', m r e = some r' → I r → I r')
    (hrun : runMonitor m s moves = some t) (hs : I s) : I t := by
  have hunless : I t ∨ Passes m s (fun _ => False) moves := by
    refine runMonitor_unless (fun earlier e later r r' heq _ hlast hI => Or.inl ?_) hrun hs
    have hmem : e ∈ moves := heq ▸ List.mem_append_right _ List.mem_cons_self
    exact hstep e hmem r r' hlast hI
  rcases hunless with hI | ⟨_, _, _, _, _, hfalse⟩
  · exact hI
  · exact hfalse.elim

end XmonadWayland
