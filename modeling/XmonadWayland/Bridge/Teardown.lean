import XmonadWayland.Bridge.Lifetime
import XmonadWayland.Bridge.Outcome

/-!
# XmonadWayland.Bridge.Teardown

Every object is given back once.  While the process runs the records are the objects that were
born and not destroyed; the clean-up releases what is left.  A protocol destructor is sent for
what the compositor withdrew, or after the manager finished.
-/

namespace XmonadWayland.Bridge

variable {kind : Kind} {i : Nat}

/-! ## Conservation -/

/-- How often the object is handled so. -/
def tally (kind : Kind) (i : Nat) (h : Handling) (log : List Wire) : Nat :=
  log.countP fun e => handling kind i e = h

/-- The records of the object. -/
def present (kind : Kind) (i : Nat) (s : State) : Nat := ((roll s kind).map Prod.fst).count i

/-- The tallies of two logs add up. -/
theorem tally_append (h : Handling) (log log' : List Wire) :
    tally kind i h (log ++ log') = tally kind i h log + tally kind i h log' := List.countP_append

/-- What a log never does to the object counts nothing. -/
theorem tally_of_ne {h : Handling} {log : List Wire} (hne : ∀ e ∈ log, handling kind i e ≠ h) :
    tally kind i h log = 0 :=
  List.countP_eq_zero.mpr fun e he => by simpa using hne e he

/-- A record is dropped for every object that is destroyed. -/
def Conserves (kind : Kind) (i : Nat) (s s' : State) : Prop :=
  ∃ sent, s'.requests = s.requests ++ sent
    ∧ present kind i s' + tally kind i .destroy (sent.map .asked) = present kind i s

section Conserves

variable {s s' s'' : State}

namespace Conserves

theorem refl (s : State) : Conserves kind i s s := ⟨[], (List.append_nil _).symm, rfl⟩

theorem trans (h : Conserves kind i s s') (h' : Conserves kind i s' s'') :
    Conserves kind i s s'' := by
  obtain ⟨sent, heq, hsum⟩ := h
  obtain ⟨sent', heq', hsum'⟩ := h'
  refine ⟨sent ++ sent', by rw [heq', heq, List.append_assoc], ?_⟩
  rw [List.map_append, tally_append]
  omega

/-- Requests that destroy nothing, with the records kept. -/
theorem of_kept (sent : List Request) (hids : (roll s' kind).map Prod.fst
    = (roll s kind).map Prod.fst) (heq : s'.requests = s.requests ++ sent)
    (hsent : ∀ r ∈ sent, r.handling kind i ≠ .destroy) : Conserves kind i s s' := by
  refine ⟨sent, heq, ?_⟩
  have hnone : tally kind i .destroy (sent.map .asked) = 0 := tally_of_ne fun e he => by
    obtain ⟨r, hr, rfl⟩ := List.mem_map.mp he
    exact hsent r hr
  rw [hnone, Nat.add_zero, present, present, hids]

/-- A silent change conserves the object. -/
theorem silent (h : Silent s s') : Conserves kind i s s' :=
  .of_kept [] (by rw [h.roll kind]) (by rw [h.requests, List.append_nil])
    fun r hr => absurd hr List.not_mem_nil

/-- So does an allowed request. -/
theorem ask {r : Request} (hr : r.allowed s) : Conserves kind i s (send [r] s) := by
  refine .of_kept _ rfl rfl fun r' hr' => ?_
  rw [List.mem_singleton.mp hr']
  rcases hr kind i with hother | ⟨v, -, hkeeps⟩
  · rw [hother]
    simp
  · intro hdestroy
    rw [hdestroy] at hkeeps
    exact absurd hkeeps Bool.false_ne_true

/-- So does configuring windows. -/
theorem configure (s : State) : Conserves kind i s (configured s) := by
  refine .of_kept _ (ids_configured s kind) rfl fun r hr => ?_
  obtain ⟨w, -, hr⟩ := List.mem_flatMap.mp hr
  unfold Window.configureRequests at hr
  split at hr
  · contradiction
  · simp only [List.mem_cons, List.not_mem_nil, or_false] at hr
    rcases hr with rfl | rfl | rfl | rfl <;> cases kind <;>
      simp [Request.handling, Request.windowHandling, Request.outputHandling,
        Request.seatHandling] <;> split <;> simp

/-- The destroyed objects of a list. -/
theorem tally_destroys (kind' : Kind) (entries : List (Nat × Existence)) :
    tally kind i .destroy ((entries.map fun entry => kind'.destroys entry.1).map .asked)
      = if kind = kind' then (entries.map Prod.fst).count i else 0 := by
  rw [tally, List.countP_map, List.countP_map, List.count_eq_countP, List.countP_map]
  by_cases hkind : kind = kind'
  · rw [if_pos hkind]
    refine List.countP_congr fun entry _ => ?_
    simp only [Function.comp_apply, handling_destroys, hkind, true_and]
    by_cases hid : entry.1 = i <;> simp [hid]
  · rw [if_neg hkind]
    refine List.countP_eq_zero.mpr fun entry _ => ?_
    simp [handling_destroys, hkind]

/-- So does dropping records with their objects. -/
theorem drop {kind' : Kind} (h : Drops kind' s s') : Conserves kind i s s' := by
  refine ⟨_, h.requests, ?_⟩
  rw [tally_destroys]
  by_cases hkind : kind = kind'
  · subst hkind
    rw [if_pos rfl, present, present, h.roll, List.count_eq_countP, List.count_eq_countP,
      List.count_eq_countP, List.countP_map, List.countP_map, List.countP_map, Nat.add_comm]
    have hsplit := List.countP_eq_countP_filter_add (roll s kind) ((· == i) ∘ Prod.fst)
      fun entry => entry.2.withdrawn
    rw [hsplit]
  · rw [if_neg hkind, Nat.add_zero, present, present, h.others kind hkind]

/-- So do deeds. -/
theorem deeds {phase : Phase} (h : Deeds phase s s') : Conserves kind i s s' := by
  induction h with
  | refl => exact .refl s
  | tail _ hlast ih =>
      refine ih.trans ?_
      cases hlast with
      | silent _ hsilent => exact .silent hsilent
      | ask r hr _ => exact .ask hr
      | configure _ _ => exact .configure _
      | drop _ _ _ hdrops => exact .drop hdrops

/-- So does attaching. -/
theorem attachments (h : Attachments s s') : Conserves kind i s s' := by
  induction h with
  | refl => exact .refl s
  | tail _ hlast ih =>
      obtain ⟨kind', id, hattached⟩ := hlast
      refine ih.trans (.of_kept _ (ids_attachments (.single ⟨kind', id, hattached⟩) kind)
        hattached.requests fun r hr => ?_)
      rw [List.mem_singleton.mp hr]
      have hrole := handling_attaches kind kind' id i
      change (kind'.attaches id).handling kind i = _ at hrole
      rw [hrole]
      split <;> simp

end Conserves

end Conserves

/-! ## Steps -/

/-- A callback that was told neither creates nor destroys. -/
theorem tally_told {cb : Callback} {h : Handling} (h₁ : h ≠ .other) (h₂ : h ≠ .withdrawn) :
    tally kind i h [.told cb] = 0 := by
  refine tally_of_ne fun e he => ?_
  rw [List.mem_singleton.mp he]
  change (if withdraws kind i cb then Handling.withdrawn else .other) ≠ h
  split
  · exact h₂.symm
  · exact h₁.symm

/-- No request creates an object. -/
theorem handling_asked_ne_born (r : Request) : handling kind i (.asked r) ≠ .born := by
  change r.handling kind i ≠ .born
  cases kind <;> cases r <;>
    simp [Request.handling, Request.windowHandling, Request.outputHandling,
      Request.seatHandling] <;> split <;> simp

/-- Births and destructions in the traffic of a step. -/
theorem tally_traffic (kind : Kind) (i : Nat) {sys : System} {cb : Callback} (born : List Nat)
    {sent : List Request} (hissued : (sys.step cb).bridge.issued = sys.bridge.issued ++ born)
    (hsent : (sys.step cb).bridge.requests = sys.bridge.requests ++ sent) :
    tally kind i .destroy (traffic sys cb) = tally kind i .destroy (sent.map .asked)
      ∧ tally kind i .born (traffic sys cb) = if creates kind cb then born.count i else 0 := by
  have htraffic : traffic sys cb = [.told cb] ++ (born.map (.born cb) ++ sent.map .asked) := by
    rw [traffic, hissued, hsent, List.drop_left, List.drop_left]
    rfl
  have hborn : ∀ e ∈ born.map (Wire.born cb), handling kind i e ≠ .destroy := by
    intro e he
    obtain ⟨id, -, rfl⟩ := List.mem_map.mp he
    change (if creates kind cb && id = i then Handling.born else .other) ≠ .destroy
    split <;> simp
  have hasked : ∀ e ∈ sent.map Wire.asked, handling kind i e ≠ .born := by
    intro e he
    obtain ⟨r, -, rfl⟩ := List.mem_map.mp he
    exact handling_asked_ne_born r
  rw [htraffic, tally_append, tally_append, tally_append, tally_append,
    tally_told (by decide) (by decide), tally_told (by decide) (by decide),
    tally_of_ne hborn, tally_of_ne hasked]
  refine ⟨by omega, ?_⟩
  rw [tally, List.countP_map, Nat.add_zero, Nat.zero_add]
  cases hcreates : creates kind cb with
  | false => exact List.countP_eq_zero.mpr fun id _ => by simp [handling, hcreates]
  | true =>
      rw [if_pos rfl, List.count_eq_countP]
      refine List.countP_congr fun id _ => ?_
      by_cases hid : id = i <;> simp [handling, hcreates, hid]

/-- The objects that live after a step. -/
def Balanced (kind : Kind) (i : Nat) (sys : System) (cb : Callback) : Prop :=
  present kind i (sys.step cb).bridge + tally kind i .destroy (traffic sys cb)
    = present kind i sys.bridge + tally kind i .born (traffic sys cb)

/-- What conserves the object and issues no id is balanced. -/
theorem balanced_of_conserves {sys : System} {cb : Callback}
    (hissued : (sys.step cb).bridge.issued = sys.bridge.issued)
    (h : Conserves kind i sys.bridge (sys.step cb).bridge) : Balanced kind i sys cb := by
  obtain ⟨sent, hsent, hsum⟩ := h
  obtain ⟨hdestroy, hborn⟩ := tally_traffic kind i [] (by rw [hissued, List.append_nil]) hsent
  rw [Balanced, hdestroy, hborn, hsum]
  simp

/-- Requests of the manager destroy nothing. -/
theorem handling_sequence {r : Request} (h : r = .manageFinish ∨ r = .renderFinish ∨ r = .stop) :
    r.handling kind i ≠ .destroy := by
  have hother : r.handling kind i = .other := by
    rcases h with rfl | rfl | rfl <;> cases kind <;> rfl
  rw [hother]
  decide

/-- The end of a transaction destroys nothing. -/
theorem keeps_ending {finish : Request} (hfinish : finish.handling kind i ≠ .destroy)
    {failed stopSent stopSent' : Bool} {sent : List Request}
    (h : Ending finish failed stopSent sent stopSent') :
    ∀ r ∈ sent, r.handling kind i ≠ .destroy := by
  cases h with
  | failure _ => exact fun r hr => absurd hr List.not_mem_nil
  | answer _ => exact List.forall_mem_singleton.mpr hfinish
  | stop _ _ =>
      refine List.forall_mem_cons.mpr ⟨hfinish, List.forall_mem_singleton.mpr ?_⟩
      exact handling_sequence (Or.inr (Or.inr rfl))

/-- A transaction conserves the object. -/
theorem conserves_transacts {phase : Phase} {finish : Request} {s s' : State}
    (hfinish : finish.handling kind i ≠ .destroy) (h : Transacts phase finish s s') :
    Conserves kind i s s' ∧ s'.issued = s.issued := by
  cases h with
  | refused _ hsilent => exact ⟨.silent hsilent, hsilent.issued⟩
  | ran t _ hdeeds hends =>
      have hphased : Conserves kind i { s with phase := phase } t := .deeds hdeeds
      obtain ⟨before, hrequests, hsum⟩ := hphased
      have hbefore : Conserves kind i s t := ⟨before, hrequests, hsum⟩
      have hissued : t.issued = s.issued := (kept_deeds hdeeds).1
      obtain ⟨sent, hsent, hending⟩ := hends.sent
      have hafter : Conserves kind i t s' :=
        .of_kept _ (by rw [hends.roll kind]) hsent (keeps_ending hfinish hending)
      exact ⟨hbefore.trans hafter, hends.issued.trans hissued⟩

/-- A new record, which is not counted for an id that could not be given. -/
theorem balanced_created {sys : System} {cb : Callback} {kind' : Kind} (hi : i ≠ 0)
    (hnew : ∀ kind, creates kind cb = decide (kind' = kind))
    (h : Creates kind' sys.bridge (sys.step cb).bridge) : Balanced kind i sys cb := by
  obtain ⟨t, hcreated, hattached⟩ := h
  have hattachments : Conserves kind i t (sys.step cb).bridge := .attachments hattached
  obtain ⟨sent, hsent, hsum⟩ := hattachments
  rw [hcreated.requests] at hsent
  have hissued : (sys.step cb).bridge.issued = t.issued := (kept_attachments hattached).2.2.1
  rw [hcreated.issued] at hissued
  have hpresent : present kind i t = present kind i sys.bridge
      + if kind' = kind ∧ (newId sys.bridge).1 = i then 1 else 0 := by
    by_cases hkind : kind' = kind
    · subst hkind
      rw [present, present, hcreated.roll, List.map_append, List.count_append]
      simp [List.count_singleton]
    · rw [present, present, hcreated.others kind (Ne.symm hkind)]
      simp [hkind]
  rcases newId_cases sys.bridge with heq | heq
  · rw [heq] at hissued hpresent
    obtain ⟨hdestroy, hborn⟩ := tally_traffic kind i [] (hissued.trans (List.append_nil _).symm) hsent
    rw [Balanced, hdestroy, hborn, hsum, hpresent, if_neg fun h => hi h.2.symm]
    simp
  · rw [heq] at hissued hpresent
    obtain ⟨hdestroy, hborn⟩ := tally_traffic kind i [sys.bridge.nextId + 1] hissued
      hsent
    rw [Balanced, hdestroy, hborn, hsum, hpresent, hnew]
    by_cases hkind : kind' = kind <;> simp [hkind, List.count_singleton]

/-- Every callback balances births and destructions. -/
theorem balanced_step (hi : i ≠ 0) (sys : System) (cb : Callback) : Balanced kind i sys cb := by
  have htransacts : ∀ {phase : Phase} {finish : Request}, finish.handling kind i ≠ .destroy →
      Transacts phase finish sys.bridge (sys.step cb).bridge → Balanced kind i sys cb :=
    fun hfinish h => balanced_of_conserves (conserves_transacts hfinish h).2
      (conserves_transacts hfinish h).1
  have hlisten : (sys.step cb).bridge = listen cb sys.bridge → Balanced kind i sys cb := by
    intro hstep
    cases hstep ▸ notice_listen cb sys.bridge with
    | silent _ h => exact balanced_of_conserves h.issued (.silent h)
    | attached t _ h hattached =>
        exact balanced_of_conserves ((kept_attachments hattached).2.2.1.trans h.issued)
          ((Conserves.silent h).trans (.attachments hattached))
    | created kind' _ hnew h => exact balanced_created hi hnew h
    | withdrawn kind' id _ h =>
        exact balanced_of_conserves h.issued (.of_kept [] (ids_withdrawn h kind)
          (by rw [h.requests, List.append_nil]) fun r hr => absurd hr List.not_mem_nil)
  cases cb with
  | managerManageStart =>
      exact htransacts (handling_sequence (Or.inl rfl)) (transacts_managerManageStart sys)
  | managerRenderStart =>
      exact htransacts (handling_sequence (Or.inr (Or.inl rfl))) (transacts_managerRenderStart sys)
  | _ => exact hlisten rfl

/-- In a run the records are what was born and not destroyed. -/
theorem present_runSystem (kind : Kind) (hi : i ≠ 0) (cbs : List Callback) (sys : System) :
    present kind i (runSystem cbs sys).bridge + tally kind i .destroy (wire cbs sys)
      = present kind i sys.bridge + tally kind i .born (wire cbs sys) := by
  induction cbs generalizing sys with
  | nil => rfl
  | cons cb cbs ih =>
      have hstep : Balanced kind i sys cb := balanced_step hi sys cb
      have hrest := ih (sys.step cb)
      rw [wire, tally_append, tally_append]
      change present kind i (runSystem cbs (sys.step cb)).bridge + _ = _
      unfold Balanced at hstep
      omega

/-! ## The clean-up -/

/-- The proxies of the records of a kind. -/
theorem count_objects {α : Type} (kind' : Kind) (id : α → Nat) (records : List α) :
    (records.map fun a => Proxy.object kind' (id a)).count (.object kind i)
      = if kind = kind' then (records.map id).count i else 0 := by
  rw [List.count_eq_countP, List.countP_map, List.count_eq_countP, List.countP_map]
  by_cases hkind : kind = kind'
  · rw [if_pos hkind]
    refine List.countP_congr fun a _ => ?_
    simp [hkind]
  · rw [if_neg hkind]
    refine List.countP_eq_zero.mpr fun a _ => ?_
    simp [Ne.symm hkind]

/-- A proxy of another object counts nothing. -/
theorem count_single (proxy : Proxy) (h : proxy ≠ .object kind i) (held : Bool) :
    (if held then [proxy] else []).count (.object kind i) = 0 := by
  cases held with
  | false => rfl
  | true => simp [h]

/-- What is left is what the records say. -/
theorem count_proxies (p : Process) :
    p.proxies.count (.object kind i) = present kind i p.system.bridge := by
  unfold Process.proxies
  simp only [List.count_append]
  rw [count_single .discovery (by simp), count_single .xkb (by simp),
    count_single .layerShell (by simp), count_single .manager (by simp),
    count_single .registry (by simp), count_objects, count_objects, count_objects]
  cases kind <;> simp [present, roll, List.map_map, Function.comp_def]

/-- Closing down releases the proxies still held. -/
theorem released_closing (env : Environment) (p : Process) :
    (p.closing env).filterMap Call.released = p.proxies := by
  have hproxies : (p.proxies.map fun proxy =>
      Call.release (p.byProtocol && proxy.hasDestructor) proxy).filterMap Call.released
        = p.proxies := by
    rw [List.filterMap_map]
    exact List.filterMap_some
  have hnone : ∀ (held : Bool) (c : Call), c.released = none →
      (if held then [c] else []).filterMap Call.released = [] := by
    intro held c hc
    cases held with
    | false => rfl
    | true => simp [hc]
  unfold Process.closing
  simp only [List.filterMap_append]
  rw [hproxies, hnone _ _ rfl, hnone _ _ rfl, hnone _ _ rfl]
  simp [Call.released]

/-- No proxy is released where nothing is. -/
theorem not_released {calls : List Call} (h : calls.filterMap Call.released = [])
    {protocol : Bool} {proxy : Proxy} : .release protocol proxy ∉ calls := fun hmem =>
  absurd (List.filterMap_eq_nil_iff.mp h _ hmem) (by simp [Call.released])

/-- A release through the protocol needs a process that may use it. -/
theorem byProtocol_of_release {env : Environment} {p : Process} {proxy : Proxy}
    (h : .release true proxy ∈ p.closing env) : p.byProtocol = true := by
  simp only [Process.closing, List.mem_append, List.mem_map, List.mem_ite_nil_right,
    List.mem_singleton] at h
  rcases h with (((⟨_, -, heq⟩ | ⟨-, heq⟩) | heq) | ⟨-, heq⟩) | ⟨-, heq⟩
  · obtain ⟨hprotocol, -⟩ := Call.release.inj heq
    exact (Bool.and_eq_true_iff.mp hprotocol).1
  all_goals contradiction

/-- The clean-up of a run releases the proxies of the records it leaves. -/
theorem count_released {start : System} {own : List String} {p : Process} (h : Ran start own p)
    (env : Environment) :
    ((p.cleanup.restoreSignalHandlers env).calls.filterMap Call.released).count (.object kind i)
      = present kind i (runSystem (heard p.calls) start).bridge := by
  have hpresent : present kind i p.system.bridge
      = present kind i (runSystem (heard p.calls) start).bridge := by
    rw [h.bridge.eq]
    rfl
  rw [calls_closing, List.filterMap_append, h.kept, List.nil_append, released_closing,
    count_proxies, hpresent]

/-- Protocol destructors are sent only where the manager finished and nothing failed. -/
theorem finished_of_release {start : System} {own : List String} {p : Process}
    (h : Ran start own p) {env : Environment} {proxy : Proxy}
    (hmem : .release true proxy ∈ (p.cleanup.restoreSignalHandlers env).calls) :
    (runSystem (heard p.calls) start).bridge.finished = true
      ∧ (runSystem (heard p.calls) start).bridge.failed = false := by
  rw [calls_closing, List.mem_append] at hmem
  have hprotocol := byProtocol_of_release (hmem.resolve_left (not_released h.kept))
  rw [Process.byProtocol, Bool.and_eq_true, Bool.not_eq_true'] at hprotocol
  obtain ⟨hfinished, hok⟩ := hprotocol
  have hfailed := congrArg State.failed h.bridge.eq
  have hsame := congrArg State.finished h.bridge.eq
  rw [show p.system.bridge.failed = false from hok] at hfailed
  exact ⟨hsame.symm.trans hfinished, (Bool.or_eq_false_iff.mp hfailed.symm).1⟩

/-- From the initial state an object is recorded as long as it is born and not destroyed. -/
theorem present_initial (kind : Kind) (hi : i ≠ 0) (cfg : Config) (loads : List (Option Config))
    (decode : List UInt8 → String) (cbs : List Callback) :
    let start := initialSystem cfg loads decode
    present kind i (runSystem cbs start).bridge + tally kind i .destroy (wire cbs start)
      = tally kind i .born (wire cbs start) := by
  intro start
  have hstart : present kind i start.bridge = 0 := by cases kind <;> rfl
  have hsum := present_runSystem kind hi cbs start
  rwa [hstart, Nat.zero_add] at hsum

/-- An object is born once at most. -/
theorem born_le_one (kind : Kind) (hi : i ≠ 0) (cfg : Config) (loads : List (Option Config))
    (decode : List UInt8 → String) (cbs : List Callback) :
    tally kind i .born (wire cbs (initialSystem cfg loads decode)) ≤ 1 := by
  obtain ⟨life, hrun, -⟩ := runMonitor_wire (inLife_step hi) cbs
    (inLife_initial kind i cfg loads decode)
  exact countP_born_le_one hrun

/-- **Every object is given back once**: in every run a window, an output or a seat is born once
at most, and is destroyed at most once, while the process runs or by its clean-up.  When `xw_run`
has returned every one that was born has been.  The clean-up sends a protocol destructor only if
the manager finished and nothing failed. -/
theorem objects_released (env : Environment) (script : List Answers) (signals : List Bool)
    (cfg : Config) (loads : List (Option Config)) (decode : List UInt8 → String) (kind : Kind)
    {i : Nat} (hi : i ≠ 0) :
    let start := initialSystem cfg loads decode
    let run := Process.xwRun env script signals start
    let cbs := heard run.1.calls
    let born := tally kind i .born (wire cbs start)
    let destroyed := tally kind i .destroy (wire cbs start)
      + (run.1.calls.filterMap Call.released).count (.object kind i)
    born ≤ 1 ∧ destroyed ≤ born ∧ (run.2.isSome → destroyed = born)
      ∧ ∀ proxy, .release true proxy ∈ run.1.calls → (runSystem cbs start).bridge.finished = true
        ∧ (runSystem cbs start).bridge.failed = false := by
  intro start run cbs born destroyed
  have hsum := present_initial kind hi cfg loads decode cbs
  have hcourse : Course env start run := course_xwRun env script signals start
  refine ⟨born_le_one kind hi cfg loads decode cbs, ?_⟩
  clear_value run
  cases hcourse with
  | unconnected p _ hcalls =>
      have hborn : born = 0 := by
        change tally kind i .born (wire (heard p.calls) start) = 0
        rw [hcalls]
        rfl
      have hdestroyed : destroyed = 0 := by
        change tally kind i .destroy (wire (heard p.calls) start)
          + (p.calls.filterMap Call.released).count (.object kind i) = 0
        rw [hcalls]
        rfl
      refine ⟨by omega, fun _ => by omega, fun proxy hmem => ?_⟩
      change Call.release true proxy ∈ p.calls at hmem
      rw [hcalls, List.mem_singleton] at hmem
      contradiction
  | running p _ h _ =>
      have hdestroyed : destroyed = tally kind i .destroy (wire (heard p.calls) start) := by
        change _ + (p.calls.filterMap Call.released).count (.object kind i) = _
        rw [h.kept]
        rfl
      refine ⟨?_, fun hsome => absurd hsome Bool.false_ne_true, fun proxy hmem =>
        absurd hmem (not_released h.kept)⟩
      rw [hdestroyed]
      exact Nat.le.intro ((Nat.add_comm _ _).trans hsum)
  | returned p own _ h _ =>
      have hcbs : cbs = heard p.calls := heard_closing env p
      clear_value cbs
      subst hcbs
      have hdestroyed : destroyed = born :=
        (congrArg (_ + ·) (count_released h env)).trans ((Nat.add_comm _ _).trans hsum)
      exact ⟨hdestroyed.le, fun _ => hdestroyed, fun proxy hmem => finished_of_release h hmem⟩

/-- An output that is there when the manager finishes. -/
def finishedScript : List Answers :=
  [{ pending := [{ arrivals := [.manager 4, .callback .registryXkb, .discovered] }] },
    { polled := .ready true false
      batch := { arrivals := [.callback .managerOutput, .callback .managerFinished] } }]

def finishedRun : Process × Option Nat :=
  Process.xwRun {} finishedScript [] (initialSystem defaultConfig [] fun _ => "")

theorem objects_released_finished :
    finishedRun.2 = some 0 ∧ .release true (.object .output 1) ∈ finishedRun.1.calls
      ∧ (runSystem (heard finishedRun.1.calls)
        (initialSystem defaultConfig [] fun _ => "")).bridge.finished = true := by
  have hresult : finishedRun.2 = some 0 := by decide +kernel
  have hrelease : .release true (.object .output 1) ∈ finishedRun.1.calls := by decide +kernel
  have hreleased := objects_released {} finishedScript [] defaultConfig [] (fun _ => "") .output
    (i := 1) (by decide)
  dsimp only at hreleased
  unfold finishedRun at hresult hrelease ⊢
  generalize Process.xwRun {} finishedScript [] (initialSystem defaultConfig [] fun _ => "") = run
    at hresult hrelease hreleased ⊢
  obtain ⟨-, -, -, hprotocol⟩ := hreleased
  exact ⟨hresult, hrelease, (hprotocol _ hrelease).1⟩

end XmonadWayland.Bridge
