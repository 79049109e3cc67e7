import XmonadWayland.Bridge.Notices

/-!
# XmonadWayland.Bridge.Sequence

The order of the manage/render sequence loop.  State of windows is only changed inside a manage
sequence and what is rendered only inside a sequence; a sequence is answered once, at its end;
the manager is stopped once at most, between two sequences.
-/

namespace XmonadWayland.Bridge

/-! ## The rule -/

/-- The sequence that runs, whether one was left without an answer, whether the manager was
stopped. -/
structure Round where
  phase : Phase := .idle
  missed : Bool := false
  stopped : Bool := false
deriving DecidableEq, Repr

/-- The compositor starts a sequence. -/
def Round.start (phase : Phase) (t : Round) : Round :=
  { t with phase := phase, missed := t.missed || t.phase ≠ .idle }

/-- Accepts traffic in which every request comes at its time. -/
def sequence (t : Round) : Wire → Option Round
  | .told .managerManageStart => some (t.start .manage)
  | .told .managerRenderStart => some (t.start .render)
  | .told _ => some t
  | .born _ _ => some t
  | .asked r => match r.scope with
    | .management => if t.phase = .manage then some t else none
    | .rendering => if t.phase = .idle then none else some t
    | .anytime => some t
    | .finish phase => if t.phase = phase then some { t with phase := .idle } else none
    | .stop => if t.phase = .idle ∧ !t.stopped then some { t with stopped := true } else none

/-! ## What is sent -/

/-- What a deed sends may be sent in its phase, and no deed stops the manager. -/
theorem sent_deed {phase : Phase} {s s' : State} (h : Deed phase s s') :
    ∃ sent, s'.requests = s.requests ++ sent ∧ ∀ r ∈ sent, scopes phase r.scope := by
  cases h with
  | silent s' h => exact ⟨[], by rw [h.requests, List.append_nil], nofun⟩
  | ask r _ hscope => exact ⟨[r], rfl, List.forall_mem_singleton.mpr hscope⟩
  | configure hphase _ =>
      subst hphase
      refine ⟨_, rfl, fun r hr => ?_⟩
      obtain ⟨w, -, hr⟩ := List.mem_flatMap.mp hr
      unfold Window.configureRequests at hr
      split at hr
      · contradiction
      · simp only [List.mem_cons, List.not_mem_nil, or_false] at hr
        rcases hr with rfl | rfl | rfl | rfl <;> simp [scopes, Request.scope, Request.manageOnly]
  | drop kind s' hphase h =>
      subst hphase
      refine ⟨_, h.requests, fun r hr => ?_⟩
      obtain ⟨entry, -, rfl⟩ := List.mem_map.mp hr
      cases kind <;> exact Or.inr (Or.inr rfl)

/-- Deeds add requests their phase allows. -/
theorem sent_deeds {phase : Phase} {s s' : State} (h : Deeds phase s s') :
    ∃ sent, s'.requests = s.requests ++ sent ∧ ∀ r ∈ sent, scopes phase r.scope := by
  induction h with
  | refl => exact ⟨[], (List.append_nil _).symm, nofun⟩
  | tail _ hlast ih =>
      obtain ⟨sent, heq, hscopes⟩ := ih
      obtain ⟨sent', heq', hscopes'⟩ := sent_deed hlast
      exact ⟨sent ++ sent', by rw [heq', heq, List.append_assoc],
        fun r hr => (List.mem_append.mp hr).elim (hscopes r) (hscopes' r)⟩

/-- Deeds give out no ids and stop nothing. -/
theorem kept_deed {phase : Phase} {s s' : State} (h : Deed phase s s') :
    s'.issued = s.issued ∧ s'.nextId = s.nextId ∧ s'.stopSent = s.stopSent := by
  cases h with
  | silent s' h => exact ⟨h.issued, h.nextId, h.stopSent⟩
  | ask r _ _ => exact ⟨rfl, rfl, rfl⟩
  | configure _ _ => exact ⟨rfl, rfl, rfl⟩
  | drop kind s' _ h => exact ⟨h.issued, h.nextId, h.stopSent⟩

/-- Deeds keep the ids and whether the stop was sent. -/
theorem kept_deeds {phase : Phase} {s s' : State} (h : Deeds phase s s') :
    s'.issued = s.issued ∧ s'.nextId = s.nextId ∧ s'.stopSent = s.stopSent := by
  refine h.keeps (P := fun t => t.issued = s.issued ∧ t.nextId = s.nextId ∧ t.stopSent = s.stopSent)
    (fun hd ht => ?_) ⟨rfl, rfl, rfl⟩
  obtain ⟨hissued, hnext, hstop⟩ := kept_deed hd
  exact ⟨hissued.trans ht.1, hnext.trans ht.2.1, hstop.trans ht.2.2⟩

/-- Attaching adds requests that fit any phase. -/
theorem sent_attachments {s s' : State} (h : Attachments s s') :
    ∃ sent, s'.requests = s.requests ++ sent ∧ (∀ r ∈ sent, r.scope = .anytime)
      ∧ s'.stopSent = s.stopSent := by
  induction h with
  | refl => exact ⟨[], (List.append_nil _).symm, nofun, rfl⟩
  | tail _ hlast ih =>
      obtain ⟨sent, heq, hscopes, hstop⟩ := ih
      obtain ⟨kind, id, hattached⟩ := hlast
      refine ⟨sent ++ [kind.attaches id], by rw [hattached.requests, heq, List.append_assoc],
        fun r hr => ?_, hattached.stopSent.trans hstop⟩
      rcases List.mem_append.mp hr with hr | hr
      · exact hscopes r hr
      · rw [List.mem_singleton.mp hr]
        cases kind <;> rfl

/-- Between two transactions only parts of objects are asked for. -/
theorem sent_listen (cb : Callback) (s : State) :
    ∃ sent, (listen cb s).requests = s.requests ++ sent ∧ (∀ r ∈ sent, r.scope = .anytime)
      ∧ (listen cb s).stopSent = s.stopSent := by
  cases notice_listen cb s with
  | silent _ h => exact ⟨[], by rw [h.requests, List.append_nil], nofun, h.stopSent⟩
  | attached t _ h hattached =>
      obtain ⟨sent, heq, hscopes, hstop⟩ := sent_attachments hattached
      exact ⟨sent, by rw [heq, h.requests], hscopes, hstop.trans h.stopSent⟩
  | created kind _ _ h =>
      obtain ⟨t, hcreated, hattached⟩ := h
      obtain ⟨sent, heq, hscopes, hstop⟩ := sent_attachments hattached
      exact ⟨sent, by rw [heq, hcreated.requests], hscopes, hstop.trans hcreated.stopSent⟩
  | withdrawn kind id _ h => exact ⟨[], by rw [h.requests, List.append_nil], nofun, h.stopSent⟩

/-! ## Steps -/

/-- What the rule and the bridge know of each other between two callbacks. -/
structure InRound (sys : System) (t : Round) : Prop where
  stopped : t.stopped = sys.bridge.stopSent
  answered : sys.bridge.failed = false → t.phase = .idle ∧ t.missed = false

section Steps

variable {sys : System} {t : Round}

/-- Requests of the phase the round is in. -/
theorem sequence_scopes {sent : List Request} (h : ∀ r ∈ sent, scopes t.phase r.scope) :
    runMonitor sequence t (sent.map .asked) = some t := by
  refine runMonitor_of_fixed fun e he => ?_
  obtain ⟨r, hr, rfl⟩ := List.mem_map.mp he
  have hscope := h r hr
  cases hphase : t.phase <;> rw [hphase] at hscope
  · simp [sequence, show r.scope = .anytime from hscope]
  · rcases hscope with heq | heq | heq <;> simp [sequence, heq, hphase]
  · simp [sequence, show r.scope = .rendering from hscope, hphase]

/-- The end of a transaction answers the sequence, unless it failed. -/
theorem sequence_ending {phase : Phase} {finish : Request} (hfinish : finish.scope = .finish phase)
    (ht : t.phase = phase) {failed stopSent : Bool} (hstopped : t.stopped = stopSent)
    {sent : List Request} {stopSent' : Bool} (h : Ending finish failed stopSent sent stopSent') :
    ∃ t', runMonitor sequence t (sent.map .asked) = some t' ∧ t'.stopped = stopSent'
      ∧ (failed = false → t'.phase = .idle ∧ t'.missed = t.missed) := by
  have hanswer : sequence t (.asked finish) = some { t with phase := .idle } := by
    simp [sequence, hfinish, ht]
  cases h with
  | failure hf => exact ⟨t, rfl, hstopped, fun hok => absurd (hf.symm.trans hok) nofun⟩
  | answer _ => exact ⟨{ t with phase := .idle },
      (runMonitor_singleton _).trans hanswer, hstopped, fun _ => ⟨rfl, rfl⟩⟩
  | stop _ hunsent =>
      have hstop : sequence { t with phase := .idle } (.asked .stop)
          = some { t with phase := .idle, stopped := true } := by
        simp [sequence, Request.scope, hstopped, hunsent]
      refine ⟨{ t with phase := .idle, stopped := true }, ?_, rfl, fun _ => ⟨rfl, rfl⟩⟩
      rw [List.map_cons, runMonitor_cons, hanswer, Option.bind_some]
      exact (runMonitor_singleton _).trans hstop

/-- A transaction that runs is answered; one that is refused leaves a failure behind. -/
theorem inRound_transacts {cb : Callback} {phase : Phase} {finish : Request}
    (hcb : ∀ t : Round, sequence t (.told cb) = some (t.start phase))
    (hfinish : finish.scope = .finish phase) (h : InRound sys t)
    (htransacts : Transacts phase finish sys.bridge (sys.step cb).bridge) :
    ∃ t', runMonitor sequence t (traffic sys cb) = some t' ∧ InRound (sys.step cb) t' := by
  cases htransacts with
  | refused hfailed hsilent =>
      refine ⟨t.start phase, ?_, h.stopped.trans hsilent.stopSent.symm,
        fun hok => absurd (hfailed.symm.trans hok) nofun⟩
      have hsent : (sys.step cb).bridge.requests = sys.bridge.requests ++ [] := by
        rw [hsilent.requests, List.append_nil]
      rw [traffic_of_sent hsilent.issued hsent, List.map_nil, runMonitor_singleton, hcb]
  | ran s hok hdeeds hends =>
      obtain ⟨hidle, hmissed⟩ := h.answered hok
      obtain ⟨sent, hsent, hscopes⟩ := sent_deeds hdeeds
      obtain ⟨hissued, -, hstop⟩ := kept_deeds hdeeds
      obtain ⟨last, hlast, hending⟩ := hends.sent
      have htraffic : traffic sys cb = .told cb :: (sent ++ last).map .asked :=
        traffic_of_sent (hends.issued.trans hissued) (by rw [hlast, hsent, List.append_assoc])
      have hstarted : (t.start phase).missed = false := by simp [Round.start, hidle, hmissed]
      obtain ⟨t', ht', hstopped, hidle'⟩ := sequence_ending (t := t.start phase) hfinish rfl
        (h.stopped.trans hstop.symm) hending
      refine ⟨t', ?_, hstopped, fun hf => ?_⟩
      · rw [htraffic, runMonitor_cons, hcb, Option.bind_some, List.map_append, runMonitor_append,
          sequence_scopes hscopes, Option.bind_some]
        exact ht'
      · obtain ⟨hphase, heq⟩ := hidle' (hends.failed ▸ hf)
        exact ⟨hphase, heq.trans hstarted⟩

/-- Other callbacks start nothing and ask the layer shell at most. -/
theorem inRound_listen {cb : Callback} (hstep : sys.step cb = sys.onBridge (listen cb))
    (hcb : sequence t (.told cb) = some t) (h : InRound sys t) :
    ∃ t', runMonitor sequence t (traffic sys cb) = some t' ∧ InRound (sys.step cb) t' := by
  obtain ⟨sent, hsent, hscopes, hstop⟩ := sent_listen cb sys.bridge
  have hfree : runMonitor sequence t (traffic sys cb) = some t := by
    rw [traffic, runMonitor_cons, hcb, Option.bind_some, hstep]
    refine runMonitor_of_fixed fun e he => ?_
    rcases List.mem_append.mp he with he | he
    · obtain ⟨id, -, rfl⟩ := List.mem_map.mp he
      rfl
    · obtain ⟨r, hr, rfl⟩ := List.mem_map.mp he
      change r ∈ List.drop _ (listen cb sys.bridge).requests at hr
      rw [hsent, List.drop_left] at hr
      simp [sequence, hscopes r hr]
  rw [hstep]
  exact ⟨t, hfree, h.stopped.trans hstop.symm,
    fun hf => h.answered (not_failed_of_step (failed_listen cb sys.bridge) hf)⟩

/-- Every callback keeps the round. -/
theorem inRound_step (sys : System) (t : Round) (cb : Callback) (h : InRound sys t) :
    ∃ t', runMonitor sequence t (traffic sys cb) = some t' ∧ InRound (sys.step cb) t' := by
  cases cb with
  | managerManageStart =>
      exact inRound_transacts (fun _ => rfl) rfl h (transacts_managerManageStart sys)
  | managerRenderStart =>
      exact inRound_transacts (fun _ => rfl) rfl h (transacts_managerRenderStart sys)
  | _ => exact inRound_listen rfl rfl h

end Steps

/-- **The sequence loop**: in every run, whatever the compositor calls, each request comes at its
time: changes of windows in a manage sequence, changes of what is rendered in either kind of
sequence, the answer to the sequence that runs, one stop between two of them.  As long as the
bridge has not failed it has answered every sequence. -/
theorem requests_in_sequence (cfg : Config) (loads : List (Option Config))
    (decode : List UInt8 → String) (cbs : List Callback) :
    let start := initialSystem cfg loads decode
    let s := (runSystem cbs start).bridge
    ∃ t, runMonitor sequence {} (wire cbs start) = some t ∧ t.stopped = s.stopSent
      ∧ (s.failed = false → t.phase = .idle ∧ t.missed = false) := by
  intro start s
  have hstart : InRound start {} := ⟨rfl, fun _ => ⟨rfl, rfl⟩⟩
  obtain ⟨t, ht, h⟩ := runMonitor_wire inRound_step cbs hstart
  exact ⟨t, ht, h.stopped, h.answered⟩

end XmonadWayland.Bridge
