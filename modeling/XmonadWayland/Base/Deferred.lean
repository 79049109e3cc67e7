import Mathlib.Data.List.Basic

/-!
# XmonadWayland.Base.Deferred

Work that is put off.  Every call of a machine may leave work behind, and some calls do
all the work that waits, oldest first.  Along a run nothing of it is lost, done twice or
done out of order, and it is known which call does what.
-/

namespace XmonadWayland

/-- A machine that puts work off; a call that flushes does what waits and then leaves its
own work behind. -/
structure Deferring (σ γ ω : Type) where
  call : σ → γ → σ
  flushes : γ → Bool
  yields : σ → γ → List ω
  waiting : σ → List ω
  done : σ → List ω
  waiting_call : ∀ s c, waiting (call s c) = (if flushes c then [] else waiting s) ++ yields s c
  done_call : ∀ s c, done (call s c) = done s ++ if flushes c then waiting s else []

namespace Deferring

variable {σ γ ω : Type} (d : Deferring σ γ ω)

def run (calls : List γ) (s : σ) : σ := calls.foldl d.call s

/-- The work the calls leave behind, each in the state it is made in. -/
def yielded : List γ → σ → List ω
  | [], _ => []
  | c :: calls, s => d.yields s c ++ yielded calls (d.call s c)

/-- None of the calls flushes. -/
def Defers (calls : List γ) : Prop := ∀ c ∈ calls, d.flushes c = false

@[simp] theorem run_nil (s : σ) : d.run [] s = s := rfl

@[simp] theorem run_cons (c : γ) (calls : List γ) (s : σ) :
    d.run (c :: calls) s = d.run calls (d.call s c) := rfl

/-- A run goes on where the earlier calls left it. -/
theorem run_append (calls later : List γ) (s : σ) :
    d.run (calls ++ later) s = d.run later (d.run calls s) := List.foldl_append

@[simp] theorem yielded_nil (s : σ) : d.yielded [] s = [] := rfl

/-- A call yields what it does at once, before the later calls. -/
@[simp] theorem yielded_cons (c : γ) (calls : List γ) (s : σ) :
    d.yielded (c :: calls) s = d.yields s c ++ d.yielded calls (d.call s c) := rfl

variable {d} {calls before since : List γ} {c : γ} {s : σ}

/-- Nothing is lost, done twice or out of order. -/
theorem done_append_waiting (calls : List γ) (s : σ) :
    d.done (d.run calls s) ++ d.waiting (d.run calls s)
      = d.done s ++ d.waiting s ++ d.yielded calls s := by
  induction calls generalizing s with
  | nil => simp
  | cons c calls ih =>
      rw [run_cons, yielded_cons, ih, d.done_call, d.waiting_call]
      cases d.flushes c <;> simp

/-- Without a flush nothing is done and everything waits. -/
theorem Defers.run (h : d.Defers calls) (s : σ) :
    d.done (d.run calls s) = d.done s
      ∧ d.waiting (d.run calls s) = d.waiting s ++ d.yielded calls s := by
  induction calls generalizing s with
  | nil => simp
  | cons c calls ih =>
      obtain ⟨hc, hcalls⟩ := List.forall_mem_cons.mp h
      have hdone : d.done (d.call s c) = d.done s := by simp [d.done_call, hc]
      have hwaiting : d.waiting (d.call s c) = d.waiting s ++ d.yields s c := by
        simp [d.waiting_call, hc]
      obtain ⟨ihdone, ihwaiting⟩ := ih hcalls (d.call s c)
      exact ⟨ihdone.trans hdone, by simp [ihwaiting, hwaiting]⟩

/-- What has been done is what there was before the last flush. -/
theorem done_of_flush (hc : d.flushes c = true) (hsince : d.Defers since) (before : List γ)
    (s : σ) :
    d.done (d.run (before ++ c :: since) s) = d.done s ++ d.waiting s ++ d.yielded before s := by
  have hflushed : d.done (d.call (d.run before s) c)
      = d.done (d.run before s) ++ d.waiting (d.run before s) := by
    simp [d.done_call, hc]
  rw [run_append, run_cons, (hsince.run _).1, hflushed, done_append_waiting]

/-- What waits is what there was since the last flush. -/
theorem waiting_of_flush (hc : d.flushes c = true) (hsince : d.Defers since) (before : List γ)
    (s : σ) :
    d.waiting (d.run (before ++ c :: since) s) = d.yielded (c :: since) (d.run before s) := by
  rw [run_append, run_cons, (hsince.run _).2, d.waiting_call]
  simp [hc]

end Deferring

end XmonadWayland
