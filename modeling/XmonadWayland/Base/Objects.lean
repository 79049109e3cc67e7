import XmonadWayland.Base.Monitor

/-!
# XmonadWayland.Base.Objects

Objects that two parties share.  The server brings an object to life and may withdraw it; the
client may attach one part to it, uses it and its part while it is not withdrawn, and
destroys it once it is.  A monitor accepts the logs in which the events of one object come in
that order.
-/

namespace XmonadWayland

variable {ε ρ : Type}

/-- What is known of a live object: it has its part, the server has withdrawn it. -/
structure Existence where
  part : Bool := false
  withdrawn : Bool := false
deriving DecidableEq, Repr

/-- What an event does with the object. -/
inductive Handling where
  | born
  | withdrawn
  | attach
  | usePart
  | use
  | destroy
  | other
deriving DecidableEq, Repr

/-- Accepts the logs in which the object is handled in order.  The server may also withdraw
what the client does not know yet or does not know any more. -/
def handle (handling : ε → Handling) (life : Lifespan Existence) (e : ε) :
    Option (Lifespan Existence) :=
  match handling e, life with
  | .other, life => some life
  | .born, .unborn => some (.alive {})
  | .withdrawn, .alive v => some (.alive { v with withdrawn := true })
  | .withdrawn, life => some life
  | .attach, .alive v =>
    if v.part || v.withdrawn then none else some (.alive { v with part := true })
  | .usePart, .alive v => if v.part && !v.withdrawn then some (.alive v) else none
  | .use, .alive v => if v.withdrawn then none else some (.alive v)
  | .destroy, .alive v => if v.withdrawn then some .dead else none
  | _, _ => none

/-- An event that a live object allows without a change. -/
def Handling.keeps (v : Existence) : Handling → Bool
  | .other => true
  | .use => !v.withdrawn
  | .usePart => v.part && !v.withdrawn
  | _ => false

section Handle

variable {handling : ε → Handling} {life : Lifespan Existence} {v : Existence} {e : ε}

/-- Other events leave the life of the object as it is. -/
theorem handle_of_other (h : handling e = .other) (life : Lifespan Existence) :
    handle handling life e = some life := by
  unfold handle
  rw [h]

/-- An event that the object allows leaves it as it is. -/
theorem handle_of_keeps (h : (handling e).keeps v = true) :
    handle handling (.alive v) e = some (.alive v) := by
  unfold handle
  cases hrole : handling e <;> simp_all [Handling.keeps]

/-- An object gets its part once, while it is there. -/
theorem handle_attach (h : handling e = .attach) (hpart : v.part = false)
    (hlive : v.withdrawn = false) :
    handle handling (.alive v) e = some (.alive { v with part := true }) := by
  unfold handle
  simp [h, hpart, hlive]

/-- A withdrawn object may be destroyed. -/
theorem handle_destroy (h : handling e = .destroy) (hgone : v.withdrawn = true) :
    handle handling (.alive v) e = some .dead := by
  unfold handle
  simp [h, hgone]

/-- Events that are about other objects, or that the object allows without a change. -/
theorem handle_log_of_keeps {log : List ε} (h : ∀ e ∈ log, handling e = .other
    ∨ ∃ v, life = .alive v ∧ (handling e).keeps v = true) :
    runMonitor (handle handling) life log = some life := by
  refine runMonitor_of_fixed fun e he => ?_
  rcases h e he with hother | ⟨v, rfl, hkeeps⟩
  · exact handle_of_other hother life
  · exact handle_of_keeps hkeeps

end Handle

/-- What has been born is not born again. -/
theorem not_born_of_handle {handling : ε → Handling} {log : List ε}
    {life life' : Lifespan Existence} (hborn : life ≠ .unborn) (h : runMonitor (handle handling) life log = some life') :
    ∀ e ∈ log, handling e ≠ .born := by
  induction log generalizing life with
  | nil => exact fun e he => absurd he List.not_mem_nil
  | cons e log ih =>
      rw [runMonitor_cons] at h
      obtain ⟨t, ht, hrest⟩ := Option.bind_eq_some_iff.mp h
      have hstep : handling e ≠ .born ∧ t ≠ .unborn := by
        unfold handle at ht
        cases hrole : handling e <;> cases life <;> simp_all
        all_goals first
          | exact ht ▸ Lifespan.alive_ne_unborn
          | exact ht.2 ▸ Lifespan.alive_ne_unborn
          | exact ht.2 ▸ Ne.symm Lifespan.unborn_ne_dead
          | exact ht ▸ Ne.symm Lifespan.unborn_ne_dead
      exact List.forall_mem_cons.mpr ⟨hstep.1, ih hstep.2 hrest⟩

/-- An object is born once. -/
theorem countP_born_le_one {handling : ε → Handling} {log : List ε} {life : Lifespan Existence}
    (h : runMonitor (handle handling) .unborn log = some life) :
    log.countP (fun e => handling e = .born) ≤ 1 := by
  induction log with
  | nil => exact Nat.zero_le 1
  | cons e log ih =>
      rw [runMonitor_cons] at h
      obtain ⟨t, ht, hrest⟩ := Option.bind_eq_some_iff.mp h
      by_cases hborn : handling e = .born
      · have halive : t ≠ .unborn := by
          unfold handle at ht
          rw [hborn] at ht
          exact Option.some.inj ht ▸ Lifespan.alive_ne_unborn
        have hnone : log.countP (fun e => handling e = .born) = 0 :=
          List.countP_eq_zero.mpr fun e he => by
            simpa using not_born_of_handle halive hrest e he
        rw [List.countP_cons, hnone]
        simp [hborn]
      · have hsame : t = .unborn := by
          unfold handle at ht
          cases hrole : handling e <;> simp_all
        rw [List.countP_cons, if_neg (by simpa using hborn), Nat.add_zero]
        exact ih (hsame ▸ hrest)

/-- After its destruction nothing is done with an object. -/
theorem other_of_dead {handling : ε → Handling} {log : List ε} {life : Lifespan Existence}
    (h : runMonitor (handle handling) .dead log = some life) :
    ∀ e ∈ log, handling e = .other ∨ handling e = .withdrawn := by
  induction log with
  | nil => exact fun e he => absurd he List.not_mem_nil
  | cons e log ih =>
      rw [runMonitor_cons] at h
      obtain ⟨t, ht, hrest⟩ := Option.bind_eq_some_iff.mp h
      have hfirst : (handling e = .other ∨ handling e = .withdrawn) ∧ t = .dead := by
        unfold handle at ht
        cases hrole : handling e <;> simp_all
      rw [hfirst.2] at hrest
      exact List.forall_mem_cons.mpr ⟨hfirst.1, ih hrest⟩

end XmonadWayland
