import XmonadWayland.Bridge.Notices
import XmonadWayland.Bridge.Turns

/-!
# XmonadWayland.Bridge.Outcome

What a run of the process comes to.  The system is what the dispatched callbacks made of it; the
main loop only ends it.  The process succeeds only after a signal, after the manager finished or
after the exit of the session was requested, and then a lost connection is no failure.
-/

namespace XmonadWayland.Bridge

/-! ## The end of a run has a reason -/

/-- Deeds keep a state vital. -/
theorem vital_deeds {phase : Phase} {s s' : State} (h : Deeds phase s s') (hs : Vital s) :
    Vital s' := by
  refine h.keeps (P := Vital) (fun hd hv => ?_) hs
  cases hd with
  | silent _ hsilent => exact hsilent.vital hv
  | ask _ _ _ => exact hv
  | configure _ _ => exact hv
  | drop _ _ _ hdrops => exact hdrops.vital hv

/-- A transaction keeps a state vital. -/
theorem vital_transacts {phase : Phase} {finish : Request} {s s' : State}
    (h : Transacts phase finish s s') (hs : Vital s) : Vital s' := by
  cases h with
  | refused hf _ => exact Or.inr (Or.inl hf)
  | ran _ _ hdeeds hends => exact hends.vital (vital_deeds hdeeds hs)

/-- Attaching keeps a state vital. -/
theorem vital_attachments {s s' : State} (h : Attachments s s') (hs : Vital s) : Vital s' := by
  induction h with
  | refl => exact hs
  | tail _ hlast ih =>
      obtain ⟨_, _, hattached⟩ := hlast
      exact hattached.vital ih

/-- A callback outside a transaction keeps a state vital. -/
theorem vital_listen (cb : Callback) {s : State} (hs : Vital s) : Vital (listen cb s) := by
  cases notice_listen cb s with
  | silent _ hsilent => exact hsilent.vital hs
  | attached t _ hsilent hattached => exact vital_attachments hattached (hsilent.vital hs)
  | created _ _ _ hcreates =>
      obtain ⟨t, hcreated, hattached⟩ := hcreates
      exact vital_attachments hattached (hcreated.vital hs)
  | withdrawn _ _ _ hwithdrawn => exact hwithdrawn.vital hs

/-- A run keeps a state vital. -/
theorem vital_runSystem {sys : System} (h : Vital sys.bridge) (cbs : List Callback) :
    Vital (runSystem cbs sys).bridge :=
  runSystem_induction (P := fun sys => Vital sys.bridge) (fun sys cb hs =>
    step_induction (P := fun t => Vital t.bridge)
      (vital_transacts (transacts_managerManageStart sys) hs)
      (vital_transacts (transacts_managerRenderStart sys) hs)
      (fun cb => vital_listen cb hs) cb) h cbs

/-! ## The clean-up concludes -/

/-- What the clean-up calls dispatches nothing and does not end the session. -/
theorem mem_closing {env : Environment} {p : Process} {c : Call} (h : c ∈ p.closing env) :
    c.heard = [] ∧ c ≠ .exitSession := by
  simp only [Process.closing, List.mem_append, List.mem_map, List.mem_ite_nil_right,
    List.mem_singleton] at h
  rcases h with (((⟨proxy, -, rfl⟩ | ⟨-, rfl⟩) | rfl) | ⟨-, rfl⟩) | ⟨-, rfl⟩ <;>
    exact ⟨rfl, by simp⟩

/-- Closing down hears nothing. -/
theorem heard_closing (env : Environment) (p : Process) :
    heard (p.cleanup.restoreSignalHandlers env).calls = heard p.calls := by
  rw [calls_closing, heard_append]
  have hnone : heard (p.closing env) = [] :=
    List.flatMap_eq_nil_iff.mpr fun c hc => (mem_closing hc).1
  rw [hnone, List.append_nil]

/-- Closing down asks for no exit. -/
theorem exitSession_closing (env : Environment) (p : Process) :
    .exitSession ∈ (p.cleanup.restoreSignalHandlers env).calls ↔ .exitSession ∈ p.calls := by
  rw [calls_closing, List.mem_append]
  exact or_iff_left fun hmem => (mem_closing hmem).2 rfl

/-- A handler that cannot be restored is a failure more. -/
theorem concluded_restoreSignal {s : State} {own : List String} {p : Process}
    (h : Concluded s own p.system.bridge) (env : Environment) (signal : Signal) (message : String) :
    ∃ more, Concluded s (own ++ more) (p.restoreSignal env signal message).system.bridge
      ∧ (∀ m ∈ more, m = message)
      ∧ (p.restoreSignal env signal message).system.runtime = p.system.runtime
      ∧ (p.restoreSignal env signal message).manager = p.manager := by
  have hnone : ∃ more, Concluded s (own ++ more) p.system.bridge ∧ ∀ m ∈ more, m = message :=
    ⟨[], by rwa [List.append_nil], fun m hm => absurd hm List.not_mem_nil⟩
  obtain ⟨more, hconcluded, hmore⟩ := hnone
  unfold Process.restoreSignal
  split
  · simp only
    split
    · exact ⟨more, hconcluded, hmore, rfl, rfl⟩
    · exact ⟨[message], h.fail message, fun m hm => List.mem_singleton.mp hm, rfl, rfl⟩
  · exact ⟨more, hconcluded, hmore, rfl, rfl⟩

/-- Closing down leaves the conclusion. -/
theorem concluded_closing {s : State} {own : List String} {p : Process}
    (h : Concluded s own p.system.bridge) (env : Environment) :
    ∃ more, Concluded s (own ++ more) (p.cleanup.restoreSignalHandlers env).system.bridge
      ∧ (∀ m ∈ more, m ∉ Process.lostMessages)
      ∧ (p.cleanup.restoreSignalHandlers env).system.runtime = p.system.runtime
      ∧ (p.cleanup.restoreSignalHandlers env).manager = p.manager := by
  obtain ⟨term, hterm, hlost, hruntime, hmanager⟩ := concluded_restoreSignal (p := p.cleanup) h env
    .term "could not restore original SIGTERM handler"
  obtain ⟨int, hint, hlost', hruntime', hmanager'⟩ := concluded_restoreSignal hterm env .int
    "could not restore original SIGINT handler"
  refine ⟨term ++ int, by rw [← List.append_assoc]; exact hint, fun m hm => ?_,
    hruntime'.trans hruntime, hmanager'.trans hmanager⟩
  rcases List.mem_append.mp hm with hm | hm
  · rw [hlost m hm]
    decide
  · rw [hlost' m hm]
    decide

/-! ## Outcomes -/

/-- The flags of the process that the clean-up leaves alone. -/
theorem flags_closing (env : Environment) (p : Process) :
    (p.cleanup.restoreSignalHandlers env).interrupted = p.interrupted := by
  have hrestore : ∀ (signal : Signal) (message : String) (q : Process),
      (q.restoreSignal env signal message).interrupted = q.interrupted := by
    intro signal message q
    unfold Process.restoreSignal
    split
    · simp only
      split <;> rfl
    · rfl
  exact (hrestore _ _ _).trans (hrestore _ _ _)

/-- What a process has come to; `own` are the failures of the main loop. -/
structure Outcome (start : System) (own : List String) (p : Process) (result : Option Nat) :
    Prop where
  runtime : p.system.runtime = (runSystem (heard p.calls) start).runtime
  bridge : p.system.bridge = { (runSystem (heard p.calls) start).bridge with
    running := p.system.bridge.running
    failed := (runSystem (heard p.calls) start).bridge.failed || own ≠ []
    failures := (runSystem (heard p.calls) start).bridge.failures ++ own }
  exit : .exitSession ∈ p.calls →
    p.manager.any (4 ≤ ·) = true ∧ ∀ message ∈ own, message ∉ Process.lostMessages
  goesOn : result = none → own = [] ∧ p.stopped = false
  returned : ∀ n, result = some n → n = if p.failed then 1 else 0
  succeeds : result = some 0 → p.interrupted = true ∨ .exitSession ∈ p.calls
    ∨ (runSystem (heard p.calls) start).bridge.finished = true

/-- Without a failure the loop was left for a reason. -/
theorem reason_of_stopped {start : System} {own : List String} {p : Process} (h : Ran start own p)
    (hvital : Vital (runSystem (heard p.calls) start).bridge) (hstopped : p.stopped = true)
    (hok : p.failed = false) : p.interrupted = true ∨ .exitSession ∈ p.calls
      ∨ (runSystem (heard p.calls) start).bridge.finished = true := by
  simp only [Process.stopped, hok, Bool.or_false, Bool.or_eq_true, Bool.not_eq_true'] at hstopped
  rcases hstopped with hinterrupted | hhalted
  · exact Or.inl hinterrupted
  · rcases h.reason with hsame | hfailed | hinterrupted | hsent
    · have hsystem : (runSystem (heard p.calls) start).bridge.failed = false := by
        have heq : p.failed = _ := congrArg State.failed h.bridge.eq
        rw [hok] at heq
        exact (Bool.or_eq_false_iff.mp heq.symm).1
      rcases hvital with hrunning | hfailed | hfinished
      · rw [← hsame, hhalted] at hrunning
        contradiction
      · rw [hsystem] at hfailed
        contradiction
      · exact Or.inr (Or.inr hfinished)
    · rw [hok] at hfailed
      contradiction
    · exact Or.inl hinterrupted
    · exact Or.inr (Or.inl (h.exit.mp hsent))

/-- **Outcome of a run**: whatever libwayland and the kernel answer, policy and bridge are what
the dispatched callbacks make of them; the main loop only adds failures, none while it goes on.
The process fails exactly if a callback or the loop did, and succeeds only after a signal, after
the manager finished or after the session was asked to exit; then no lost connection is a
failure, and the manager has version 4. -/
theorem run_as_heard (env : Environment) (script : List Answers) (signals : List Bool)
    (cfg : Config) (loads : List (Option Config)) (decode : List UInt8 → String) :
    let start := initialSystem cfg loads decode
    let run := Process.xwRun env script signals start
    if env.connected then ∃ own, Outcome start own run.1 run.2
    else run.1.calls = [.connect false] ∧ run.2 = some 1 := by
  intro start run
  have hvital : Vital start.bridge := Or.inl rfl
  have hcourse : Course env start run := course_xwRun env script signals start
  clear_value run
  cases hcourse with
  | unconnected p hnot hcalls =>
      rw [if_neg (by rw [hnot]; exact Bool.false_ne_true)]
      exact ⟨hcalls, rfl⟩
  | running p hconnected h hgoing =>
      rw [if_pos hconnected]
      have hran := h.ran
      refine ⟨[], hran.runtime, hran.bridge.eq, fun hsent => ?_, fun _ => ⟨rfl, hgoing⟩,
        by simp, by simp⟩
      exact ⟨h.version (h.exit.mpr hsent), fun m hm => absurd hm List.not_mem_nil⟩
  | returned p own hconnected h hstopped =>
      rw [if_pos hconnected]
      obtain ⟨more, hconcluded, hlost, hruntime, hmanager⟩ := concluded_closing h.bridge env
      refine ⟨own ++ more, ?_, ?_, fun hsent => ?_, by simp, fun n hn => (Option.some.inj hn).symm,
        fun hzero => ?_⟩
      · rw [heard_closing, hruntime]
        exact h.runtime
      · rw [heard_closing]
        exact hconcluded.eq
      · have hexit := h.exit.mpr ((exitSession_closing env p).mp hsent)
        refine ⟨by rw [hmanager]; exact h.version hexit, fun m hm => ?_⟩
        exact (List.mem_append.mp hm).elim (h.forgiven hexit m) (hlost m)
      · have hok : (p.cleanup.restoreSignalHandlers env).failed = false := by
          cases hfailed : (p.cleanup.restoreSignalHandlers env).failed with
          | false => rfl
          | true =>
              rw [hfailed] at hzero
              exact absurd (Option.some.inj hzero) (by decide)
        have hbefore : p.failed = false := by
          rw [failed_closing, Bool.or_assoc, Bool.or_eq_false_iff] at hok
          exact hok.1
        rw [flags_closing, exitSession_closing, heard_closing]
        exact reason_of_stopped h (vital_runSystem hvital _) hstopped hbefore

end XmonadWayland.Bridge
