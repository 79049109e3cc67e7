import XmonadWayland.Bridge.Sequence

/-!
# XmonadWayland.Bridge.Lifetime

The life of every window, output and seat on the wire.  The compositor brings it to life with a
new id; its node or layer-shell state is requested once at most; it is used only while the
compositor has not withdrawn it, and destroyed once, afterwards.  The records say at every time
how far an object's life has come.
-/

namespace XmonadWayland.Bridge

/-! ## Records and lives -/

/-- No two records of a kind have one id. -/
def Distinct (s : State) : Prop := ∀ kind, ((roll s kind).map Prod.fst).Nodup

/-- Ids that are not given out yet belong to no record. -/
def Bounded (s : State) : Prop := ∀ kind, ∀ entry ∈ roll s kind, entry.1 ≤ s.nextId

/-- The records of the object `i` say how far its life is. -/
structure Tallied (kind : Kind) (i : Nat) (s : State) (life : Lifespan Existence) : Prop where
  record : ∀ v, (i, v) ∈ roll s kind → life = .alive v
  fresh : s.nextId < i → life = .unborn

section Tallied

variable {kind : Kind} {i : Nat} {s s' : State} {life : Lifespan Existence}

theorem Tallied.congr (h : Tallied kind i s life) (hroll : roll s' kind = roll s kind)
    (hnext : s'.nextId = s.nextId) : Tallied kind i s' life :=
  ⟨by rw [hroll]; exact h.record, by rw [hnext]; exact h.fresh⟩

/-- A request the records allow. -/
theorem Tallied.asked (h : Tallied kind i s life) {r : Request} (hr : r.allowed s) :
    handle (handling kind i) life (.asked r) = some life := by
  rcases hr kind i with hother | ⟨v, hv, hkeeps⟩
  · exact handle_of_other hother life
  · rw [h.record v hv]
    exact handle_of_keeps hkeeps

/-- The entries of an object after a change of one. -/
theorem mem_changeAt {id : Nat} {f : Existence → Existence} {entries : List (Nat × Existence)}
    {v : Existence} : (i, v) ∈ changeAt id f entries
      ↔ ∃ v', (i, v') ∈ entries ∧ v = if id = i then f v' else v' := by
  rw [changeAt, List.mem_map]
  constructor
  · rintro ⟨⟨j, v'⟩, hmem, heq⟩
    by_cases hid : j = id
    · rw [if_pos hid, Prod.mk.injEq] at heq
      obtain ⟨rfl, rfl⟩ := heq
      exact ⟨v', hmem, by rw [if_pos hid.symm]⟩
    · rw [if_neg hid, Prod.mk.injEq] at heq
      obtain ⟨rfl, rfl⟩ := heq
      exact ⟨v', hmem, by rw [if_neg (Ne.symm hid)]⟩
  · rintro ⟨v', hmem, rfl⟩
    refine ⟨(i, v'), hmem, ?_⟩
    by_cases hid : id = i
    · rw [if_pos hid.symm, if_pos hid]
    · rw [if_neg (Ne.symm hid), if_neg hid]

end Tallied

/-- What a request for a part means. -/
theorem handling_attaches (kind kind' : Kind) (id i : Nat) :
    handling kind i (.asked (kind'.attaches id))
      = if kind = kind' ∧ id = i then .attach else .other := by
  cases kind <;> cases kind' <;> simp [handling, Request.handling, Kind.attaches,
    Request.windowHandling, Request.outputHandling, Request.seatHandling]

theorem handling_destroys (kind kind' : Kind) (id i : Nat) :
    handling kind i (.asked (kind'.destroys id))
      = if kind = kind' ∧ id = i then .destroy else .other := by
  cases kind <;> cases kind' <;> simp [handling, Request.handling, Kind.destroys,
    Request.windowHandling, Request.outputHandling, Request.seatHandling]

/-! ## Steps -/

/-- What is sent on the way is in order for the object, and its records stay true. -/
def Accounts (kind : Kind) (i : Nat) (s s' : State) : Prop :=
  ∀ life, Tallied kind i s life → ∃ sent life', s'.requests = s.requests ++ sent
    ∧ runMonitor (handle (handling kind i)) life (sent.map .asked) = some life'
    ∧ Tallied kind i s' life'

section Steps

variable {kind : Kind} {i : Nat} {s s' s'' : State}

namespace Accounts

theorem silent (h : Silent s s') : Accounts kind i s s' := fun life hlife =>
  ⟨[], life, by rw [h.requests, List.append_nil], rfl, hlife.congr (h.roll kind) h.nextId⟩

theorem refl (s : State) : Accounts kind i s s := fun life hlife =>
  ⟨[], life, (List.append_nil _).symm, rfl, hlife⟩

theorem trans (h : Accounts kind i s s') (h' : Accounts kind i s' s'') : Accounts kind i s s'' := by
  intro life hlife
  obtain ⟨sent, middle, heq, hrun, hmiddle⟩ := h life hlife
  obtain ⟨sent', life', heq', hrun', hlife'⟩ := h' middle hmiddle
  refine ⟨sent ++ sent', life', by rw [heq', heq, List.append_assoc], ?_, hlife'⟩
  rw [List.map_append, runMonitor_append, hrun, Option.bind_some, hrun']

theorem ask {r : Request} (hr : r.allowed s) : Accounts kind i s (send [r] s) :=
  fun life hlife => ⟨[r], life, rfl, (runMonitor_singleton _).trans (hlife.asked hr),
    hlife.congr rfl rfl⟩

theorem attached {kind' : Kind} {id : Nat} (h : Attached kind' id s s') : Accounts kind i s s' := by
  intro life hlife
  by_cases hsame : kind = kind' ∧ id = i
  · obtain ⟨rfl, rfl⟩ := hsame
    obtain ⟨v, hv, hpart, hlive⟩ := h.bare
    have halive := hlife.record v hv
    refine ⟨[kind.attaches id], .alive { v with part := true }, h.requests, ?_, fun v' hv' => ?_,
      fun hlt => ?_⟩
    · rw [List.map_singleton, runMonitor_singleton, halive]
      exact handle_attach ((handling_attaches _ _ _ _).trans (if_pos ⟨rfl, rfl⟩)) hpart hlive
    · rw [h.roll, mem_changeAt] at hv'
      obtain ⟨v'', hv'', rfl⟩ := hv'
      obtain rfl := Lifespan.alive.inj (halive.symm.trans (hlife.record v'' hv''))
      rw [if_pos rfl]
    · rw [h.nextId] at hlt
      exact absurd (halive.symm.trans (hlife.fresh hlt)) Lifespan.alive_ne_unborn
  · refine ⟨[kind'.attaches id], life, h.requests, ?_, fun v hv => ?_, h.nextId ▸ hlife.fresh⟩
    · rw [List.map_singleton, runMonitor_singleton]
      exact handle_of_other ((handling_attaches _ _ _ _).trans (if_neg hsame)) life
    · by_cases hkind : kind = kind'
      · subst hkind
        rw [h.roll, mem_changeAt] at hv
        obtain ⟨v', hv', rfl⟩ := hv
        rw [if_neg fun hid => hsame ⟨rfl, hid⟩]
        exact hlife.record v' hv'
      · rw [h.others kind hkind] at hv
        exact hlife.record v hv

theorem attachments (h : Attachments s s') : Accounts kind i s s' := by
  induction h with
  | refl => exact .refl s
  | tail _ hlast ih =>
      obtain ⟨kind', id, hattached⟩ := hlast
      exact ih.trans (.attached hattached)

/-- The requests for a new window. -/
theorem run_configureRequests {w : Window} (hsuited : w.node = w.configured)
    (hopen : w.closed = false) :
    runMonitor (handle (handling .window w.id)) (.alive w.existence)
        (w.configureRequests.map Wire.asked)
      = some (.alive ⟨w.node || !w.configured, w.closed⟩) := by
  unfold Window.configureRequests
  split
  · next hconf => simp [Window.existence, hconf]
  · next hconf =>
    have hbare : w.node = false := hsuited.trans (Bool.eq_false_iff.mpr hconf)
    simp [runMonitor, handle, handling, Request.handling, Request.windowHandling, Window.existence,
      hbare, hopen, hconf]

theorem other_configureRequests {w : Window} (h : kind ≠ .window ∨ w.id ≠ i) :
    ∀ e ∈ w.configureRequests.map Wire.asked, handling kind i e = .other := by
  intro e he
  obtain ⟨r, hr, rfl⟩ := List.mem_map.mp he
  unfold Window.configureRequests at hr
  split at hr
  · contradiction
  · simp only [List.mem_cons, List.not_mem_nil, or_false] at hr
    cases kind with
    | window =>
        have hid : w.id ≠ i := h.resolve_left fun hne => hne rfl
        rcases hr with rfl | rfl | rfl | rfl <;>
          simp [handling, Request.handling, Request.windowHandling, hid]
    | output => rcases hr with rfl | rfl | rfl | rfl <;> rfl
    | seat => rcases hr with rfl | rfl | rfl | rfl <;> rfl

/-- The nodes of new windows. -/
theorem configure (hsuited : Suited s) (hids : (s.windows.map Window.id).Nodup)
    (hopen : ∀ w ∈ s.windows, w.closed = false) : Accounts kind i s (configured s) := by
  intro life hlife
  have hsplit : (s.windows.flatMap Window.configureRequests).map Wire.asked
      = s.windows.flatMap fun w => w.configureRequests.map .asked := List.map_flatMap
  by_cases hkind : kind = .window
  · subst hkind
    rcases runMonitor_flatMap_keyed (m := handle (handling .window i)) (s := life)
      (f := fun w : Window => w.configureRequests.map Wire.asked) hids (fun w _ hne e he t =>
        handle_of_other (other_configureRequests (Or.inr hne) e he) t) with
      ⟨w, hw, rfl, hrun⟩ | ⟨hnone, hrun⟩
    · have halive : life = .alive w.existence := hlife.record _ (List.mem_map_of_mem hw)
      refine ⟨_, .alive ⟨w.node || !w.configured, w.closed⟩, rfl, ?_, fun v hv => ?_, fun hlt => ?_⟩
      · rw [hsplit, hrun, halive]
        exact run_configureRequests (hsuited w hw) (hopen w hw)
      · obtain ⟨w', hw', heq⟩ := List.mem_map.mp hv
        obtain ⟨w'', hw'', rfl⟩ := List.mem_map.mp hw'
        obtain ⟨hid, rfl⟩ := Prod.mk.inj heq
        rw [List.inj_on_of_nodup_map hids hw'' hw hid]
        rfl
      · exact absurd (halive.symm.trans (hlife.fresh hlt)) Lifespan.alive_ne_unborn
    · refine ⟨_, life, rfl, hsplit ▸ hrun, fun v hv => ?_, hlife.fresh⟩
      obtain ⟨w', hw', heq⟩ := List.mem_map.mp hv
      obtain ⟨w, hw, rfl⟩ := List.mem_map.mp hw'
      exact absurd (Prod.mk.inj heq).1 (hnone w hw)
  · refine ⟨_, life, rfl, ?_, ?_, hlife.fresh⟩
    · rw [hsplit]
      refine handle_log_of_keeps fun e he => Or.inl ?_
      obtain ⟨w, -, he⟩ := List.mem_flatMap.mp he
      exact other_configureRequests (Or.inl hkind) e he
    · cases kind with
      | window => contradiction
      | output => exact hlife.record
      | seat => exact hlife.record

/-- Dropping what was withdrawn. -/
theorem drop {kind' : Kind} (h : Drops kind' s s') (hids : ((roll s kind').map Prod.fst).Nodup) :
    Accounts kind i s s' := by
  intro life hlife
  have hsplit : (((roll s kind').filter fun entry => entry.2.withdrawn).map fun entry =>
      kind'.destroys entry.1).map Wire.asked = ((roll s kind').filter fun entry =>
        entry.2.withdrawn).flatMap fun entry => [.asked (kind'.destroys entry.1)] := by
    rw [List.map_map, List.map_eq_flatMap]
    rfl
  by_cases hkind : kind = kind'
  · subst hkind
    have hgone : (((roll s kind).filter fun entry => entry.2.withdrawn).map Prod.fst).Nodup :=
      hids.sublist (List.filter_sublist.map _)
    have hother : ∀ entry ∈ (roll s kind).filter fun entry => entry.2.withdrawn, entry.1 ≠ i →
        ∀ e ∈ [Wire.asked (kind.destroys entry.1)], ∀ t,
          handle (handling kind i) t e = some t := by
      intro entry _ hne e he t
      rw [List.mem_singleton.mp he]
      exact handle_of_other ((handling_destroys _ _ _ _).trans (if_neg fun h => hne h.2)) t
    rcases runMonitor_flatMap_keyed (s := life) hgone hother with
      ⟨⟨j, v⟩, hmem, rfl, hrun⟩ | ⟨hnone, hrun⟩
    · obtain ⟨hentry, hgone⟩ := List.mem_filter.mp hmem
      have halive := hlife.record v hentry
      refine ⟨_, .dead, h.requests, ?_, fun v' hv' => ?_, fun hlt => ?_⟩
      · rw [hsplit, hrun, runMonitor_singleton, halive]
        exact handle_destroy ((handling_destroys _ _ _ _).trans (if_pos ⟨rfl, rfl⟩)) hgone
      · rw [h.roll] at hv'
        obtain ⟨hold, hlive⟩ := List.mem_filter.mp hv'
        obtain rfl := Lifespan.alive.inj (halive.symm.trans (hlife.record v' hold))
        change v.withdrawn = true at hgone
        simp [hgone] at hlive
      · rw [h.nextId] at hlt
        exact absurd (halive.symm.trans (hlife.fresh hlt)) Lifespan.alive_ne_unborn
    · refine ⟨_, life, h.requests, hsplit ▸ hrun, fun v hv => ?_, h.nextId ▸ hlife.fresh⟩
      rw [h.roll] at hv
      exact hlife.record v (List.mem_of_mem_filter hv)
  · refine ⟨_, life, h.requests, ?_, fun v hv => ?_, h.nextId ▸ hlife.fresh⟩
    · refine handle_log_of_keeps fun e he => Or.inl ?_
      obtain ⟨r, hr, rfl⟩ := List.mem_map.mp he
      obtain ⟨entry, -, rfl⟩ := List.mem_map.mp hr
      exact (handling_destroys _ _ _ _).trans (if_neg fun h => hkind h.1)
    · rw [h.others kind hkind] at hv
      exact hlife.record v hv

end Accounts

/-! ### Deeds -/

theorem ids_configured (s : State) (kind : Kind) :
    (roll (configured s) kind).map Prod.fst = (roll s kind).map Prod.fst := by
  cases kind with
  | window =>
      simp only [roll, configured, send, List.map_map]
      rfl
  | output => rfl
  | seat => rfl

theorem ids_drop {dropped : Kind} (h : Drops dropped s s') (kind : Kind) :
    ((roll s' kind).map Prod.fst).Sublist ((roll s kind).map Prod.fst) := by
  by_cases hkind : kind = dropped
  · subst hkind
    rw [h.roll]
    exact List.filter_sublist.map _
  · rw [h.others kind hkind]

/-- No deed adds a record. -/
theorem ids_deed {phase : Phase} (h : Deed phase s s') (kind : Kind) :
    ((roll s' kind).map Prod.fst).Sublist ((roll s kind).map Prod.fst) := by
  cases h with
  | silent s' h => rw [h.roll kind]
  | ask r _ _ => exact List.Sublist.refl _
  | configure _ _ => rw [ids_configured s kind]
  | drop dropped s' _ h => exact ids_drop h kind

theorem suited_deed {phase : Phase} (h : Deed phase s s') (hsuited : Suited s) : Suited s' := by
  cases h with
  | silent s' h => exact h.suited hsuited
  | ask r _ _ => exact hsuited
  | configure _ _ =>
      refine List.forall_mem_map.mpr fun w hw => ?_
      change (w.node || !w.configured) = true
      rw [hsuited w hw, Bool.or_not_self]
  | drop dropped s' _ h => exact h.suited hsuited

theorem distinct_deed {phase : Phase} (h : Deed phase s s') (hids : Distinct s) : Distinct s' :=
  fun kind => (hids kind).sublist (ids_deed h kind)

theorem Bounded.silent (h : Bounded s) (hsilent : Silent s s') : Bounded s' := by
  intro kind entry hentry
  rw [hsilent.roll kind] at hentry
  rw [hsilent.nextId]
  exact h kind entry hentry

theorem bounded_deed {phase : Phase} (h : Deed phase s s') (hbounded : Bounded s) : Bounded s' := by
  intro kind entry hentry
  rw [(kept_deed h).2.1]
  obtain ⟨old, hold, heq⟩ := List.mem_map.mp
    ((ids_deed h kind).subset (List.mem_map_of_mem (f := Prod.fst) hentry))
  exact heq ▸ hbounded kind old hold

theorem accounts_deed {phase : Phase} (h : Deed phase s s') (hsuited : Suited s)
    (hids : Distinct s) : Accounts kind i s s' := by
  cases h with
  | silent s' h => exact .silent h
  | ask r hr _ => exact .ask hr
  | configure _ hopen =>
      have hwindows : (s.windows.map Window.id).Nodup := by
        have hnodup := hids .window
        rwa [roll, List.map_map] at hnodup
      exact .configure hsuited hwindows hopen
  | drop dropped s' _ h => exact .drop h (hids dropped)

/-- Whole transactions. -/
theorem accounts_deeds {phase : Phase} (h : Deeds phase s s') (hsuited : Suited s)
    (hids : Distinct s) : Accounts kind i s s' := by
  induction h with
  | refl => exact .refl s
  | tail hdeeds hlast ih =>
      exact ih.trans (accounts_deed hlast (Deeds.keeps suited_deed hdeeds hsuited)
        (Deeds.keeps distinct_deed hdeeds hids))

theorem handling_ending {finish : Request} (hfinish : ∀ kind i, finish.handling kind i = .other)
    {failed stopSent stopSent' : Bool} {sent : List Request}
    (h : Ending finish failed stopSent sent stopSent') :
    ∀ e ∈ sent.map Wire.asked, handling kind i e = .other := by
  have hstop : handling kind i (.asked .stop) = .other := by cases kind <;> rfl
  cases h with
  | failure _ => exact fun e he => absurd he List.not_mem_nil
  | answer _ => exact List.forall_mem_singleton.mpr (hfinish kind i)
  | stop _ _ => exact List.forall_mem_cons.mpr ⟨hfinish kind i, List.forall_mem_singleton.mpr hstop⟩

/-- Answers concern no object. -/
theorem accounts_ends {finish : Request} (hfinish : ∀ kind i, finish.handling kind i = .other)
    (h : Ends finish s s') : Accounts kind i s s' := by
  intro life hlife
  obtain ⟨sent, hsent, hending⟩ := h.sent
  exact ⟨sent, life, hsent,
    handle_log_of_keeps fun e he => Or.inl (handling_ending hfinish hending e he),
    hlife.congr (h.roll kind) h.nextId⟩

end Steps

/-! ## Runs -/

/-- What holds of one object and of the records between two callbacks. -/
structure InLife (kind : Kind) (i : Nat) (sys : System) (life : Lifespan Existence) : Prop where
  tallied : Tallied kind i sys.bridge life
  suited : Suited sys.bridge
  bounded : Bounded sys.bridge
  distinct : sys.bridge.failed = false → Distinct sys.bridge

section Runs

variable {kind : Kind} {i : Nat} {sys : System} {life : Lifespan Existence}

/-- A transaction is in order for every object. -/
theorem inLife_transacts {cb : Callback} {phase : Phase} {finish : Request}
    (hcb : withdraws kind i cb = false) (hfinish : ∀ kind i, finish.handling kind i = .other)
    (h : InLife kind i sys life)
    (htransacts : Transacts phase finish sys.bridge (sys.step cb).bridge) :
    ∃ life', runMonitor (handle (handling kind i)) life (traffic sys cb) = some life'
      ∧ InLife kind i (sys.step cb) life' := by
  have htold : handle (handling kind i) life (.told cb) = some life :=
    handle_of_other (by simp [handling, hcb]) life
  cases htransacts with
  | refused hfailed hsilent =>
      refine ⟨life, ?_, h.tallied.congr (hsilent.roll kind) hsilent.nextId, hsilent.suited h.suited,
        h.bounded.silent hsilent, fun hok => absurd (hfailed.symm.trans hok) nofun⟩
      have hsent : (sys.step cb).bridge.requests = sys.bridge.requests ++ [] := by
        rw [hsilent.requests, List.append_nil]
      rw [traffic_of_sent hsilent.issued hsent, List.map_nil, runMonitor_singleton, htold]
  | ran s hok hdeeds hends =>
      have hsuited : Suited { sys.bridge with phase := phase } := h.suited
      have hids : Distinct { sys.bridge with phase := phase } := h.distinct hok
      have hbounded : Bounded { sys.bridge with phase := phase } := h.bounded
      have htallied : Tallied kind i { sys.bridge with phase := phase } life :=
        ⟨h.tallied.record, h.tallied.fresh⟩
      obtain ⟨sent, life', hsent, hrun, hlife'⟩ :=
        ((accounts_deeds hdeeds hsuited hids).trans (accounts_ends hfinish hends)) life htallied
      obtain ⟨hissued, -, -⟩ := kept_deeds hdeeds
      refine ⟨life', ?_, hlife', hends.suited (hdeeds.keeps suited_deed hsuited), ?_, fun _ => ?_⟩
      · rw [traffic_of_sent (hends.issued.trans hissued) hsent, runMonitor_cons, htold,
          Option.bind_some, hrun]
      · intro kind' entry hentry
        rw [hends.roll kind'] at hentry
        rw [hends.nextId]
        exact hdeeds.keeps bounded_deed hbounded kind' entry hentry
      · intro kind'
        rw [hends.roll kind']
        exact hdeeds.keeps distinct_deed hids kind'

/-- What the compositor tells of objects of other kinds or other ids. -/
theorem handle_told_other {cb : Callback} (hcb : withdraws kind i cb = false)
    (life : Lifespan Existence) : handle (handling kind i) life (.told cb) = some life :=
  handle_of_other (by simp [handling, hcb]) life

/-- Withdrawing keeps the records true. -/
theorem handle_withdrawn {cb : Callback} {s s' : State} {kind' : Kind} {id : Nat}
    (hcb : withdraws kind i cb = decide (kind' = kind ∧ id = i)) (h : Tallied kind i s life)
    (hwithdrawn : Withdrawn kind' id s s') :
    ∃ life', handle (handling kind i) life (.told cb) = some life' ∧ Tallied kind i s' life' := by
  by_cases hsame : kind' = kind ∧ id = i
  · obtain ⟨rfl, rfl⟩ := hsame
    have hrole : handling kind' id (.told cb) = .withdrawn := by simp [handling, hcb]
    have hrecord : ∀ v, (id, v) ∈ roll s' kind' →
        ∃ v', life = .alive v' ∧ v = { v' with withdrawn := true } := by
      intro v hv
      rw [hwithdrawn.roll, mem_changeAt] at hv
      obtain ⟨v', hv', rfl⟩ := hv
      exact ⟨v', h.record v' hv', if_pos rfl⟩
    have hfresh : s'.nextId < id → life = .unborn := by
      rw [hwithdrawn.nextId]
      exact h.fresh
    unfold handle
    rw [hrole]
    cases life with
    | unborn => exact ⟨.unborn, rfl, fun v hv => by
        obtain ⟨v', hlife, -⟩ := hrecord v hv
        contradiction, fun _ => rfl⟩
    | alive v => exact ⟨.alive { v with withdrawn := true }, rfl, fun v' hv' => by
        obtain ⟨v'', hlife, rfl⟩ := hrecord v' hv'
        rw [Lifespan.alive.inj hlife], fun hlt => absurd (hfresh hlt) Lifespan.alive_ne_unborn⟩
    | dead => exact ⟨.dead, rfl, fun v hv => by
        obtain ⟨v', hlife, -⟩ := hrecord v hv
        contradiction, hfresh⟩
  · refine ⟨life, handle_told_other (by simp [hcb, hsame]) life, fun v hv => ?_,
      hwithdrawn.nextId ▸ h.fresh⟩
    by_cases hkind : kind = kind'
    · subst hkind
      rw [hwithdrawn.roll, mem_changeAt] at hv
      obtain ⟨v', hv', rfl⟩ := hv
      rw [if_neg fun hid => hsame ⟨rfl, hid⟩]
      exact h.record v' hv'
    · rw [hwithdrawn.others kind hkind] at hv
      exact h.record v hv

/-- A new id brings its object to life. -/
theorem handle_created {cb : Callback} {s s' : State} {kind' : Kind} (hi : i ≠ 0)
    (hcb : ∀ kind, creates kind cb = decide (kind' = kind)) (h : Tallied kind i s life)
    (hbounded : Bounded s) (hcreated : Created kind' s s') :
    ∃ born life', s'.issued = s.issued ++ born
      ∧ runMonitor (handle (handling kind i)) life (born.map (.born cb)) = some life'
      ∧ Tallied kind i s' life' := by
  have hother : (newId s).1 ≠ i → ∀ v, (i, v) ∈ roll s' kind → (i, v) ∈ roll s kind := by
    intro hid v hv
    by_cases hkind : kind = kind'
    · subst hkind
      rw [hcreated.roll, List.mem_append, List.mem_singleton] at hv
      exact hv.resolve_right fun heq => hid (Prod.mk.inj heq).1.symm
    · rwa [hcreated.others kind hkind] at hv
  rcases newId_cases s with heq | heq
  · have hid : (newId s).1 ≠ i := by rw [heq]; exact Ne.symm hi
    refine ⟨[], life, ?_, rfl, fun v hv => h.record v (hother hid v hv), ?_⟩
    · rw [hcreated.issued, heq, List.append_nil]
      rfl
    · rw [hcreated.nextId, heq]
      exact h.fresh
  · have hissued : s'.issued = s.issued ++ [s.nextId + 1] := by rw [hcreated.issued, heq]
    have hnext : s'.nextId = s.nextId + 1 := by rw [hcreated.nextId, heq]
    by_cases hid : s.nextId + 1 = i
    · subst hid
      have hunborn : life = .unborn := h.fresh (Nat.lt_succ_self _)
      have hnone : ∀ kind v, (s.nextId + 1, v) ∉ roll s kind := fun kind v hv =>
        absurd (hbounded kind _ hv) (Nat.not_succ_le_self _)
      by_cases hkind : kind = kind'
      · subst hkind
        refine ⟨[s.nextId + 1], .alive {}, hissued, ?_, fun v hv => ?_, fun hlt => ?_⟩
        · rw [List.map_singleton, runMonitor_singleton, hunborn]
          simp [handle, handling, hcb]
        · rw [hcreated.roll, List.mem_append, List.mem_singleton] at hv
          rw [(Prod.mk.inj (hv.resolve_left (hnone kind v))).2]
        · rw [hnext] at hlt
          exact absurd hlt (Nat.lt_irrefl _)
      · refine ⟨[s.nextId + 1], life, hissued, ?_, fun v hv => ?_, fun _ => hunborn⟩
        · rw [List.map_singleton, runMonitor_singleton]
          exact handle_of_other (by simp [handling, hcb, Ne.symm hkind]) life
        · rw [hcreated.others kind hkind] at hv
          exact absurd hv (hnone kind v)
    · have hfirst : (newId s).1 ≠ i := by rw [heq]; exact hid
      refine ⟨[s.nextId + 1], life, hissued, ?_, fun v hv => h.record v (hother hfirst v hv),
        fun hlt => h.fresh (Nat.lt_of_succ_lt (hnext.symm.trans_lt hlt))⟩
      rw [List.map_singleton, runMonitor_singleton]
      exact handle_of_other (by simp [handling, hid]) life

theorem bounded_created {s s' : State} {kind' : Kind} (h : Bounded s)
    (hcreated : Created kind' s s') : Bounded s' := by
  have hgrows : s.nextId ≤ s'.nextId ∧ (newId s).1 ≤ s'.nextId := by
    rw [hcreated.nextId]
    rcases newId_cases s with heq | heq <;> rw [heq]
    · exact ⟨Nat.le_refl _, Nat.zero_le _⟩
    · exact ⟨Nat.le_succ _, Nat.le_refl _⟩
  intro kind entry hentry
  by_cases hkind : kind = kind'
  · subst hkind
    rw [hcreated.roll, List.mem_append, List.mem_singleton] at hentry
    rcases hentry with hold | rfl
    · exact (h kind entry hold).trans hgrows.1
    · exact hgrows.2
  · rw [hcreated.others kind hkind] at hentry
    exact (h kind entry hentry).trans hgrows.1

theorem distinct_created {s s' : State} {kind' : Kind} (hids : Distinct s) (h : Bounded s)
    (hcreated : Created kind' s s') (hok : s'.failed = false) : Distinct s' := by
  intro kind
  by_cases hkind : kind = kind'
  · subst hkind
    rw [hcreated.roll, List.map_append, List.map_singleton]
    rcases newId_cases s with heq | heq
    · rw [hcreated.failed, heq] at hok
      exact absurd hok nofun
    · refine List.nodup_append.mpr ⟨hids kind, List.nodup_singleton _, ?_⟩
      rintro id hid _ hnew rfl
      obtain ⟨entry, hentry, rfl⟩ := List.mem_map.mp hid
      have hle := h kind entry hentry
      rw [List.mem_singleton.mp hnew, heq] at hle
      exact absurd hle (Nat.not_succ_le_self _)
  · rw [hcreated.others kind hkind]
    exact hids kind

/-- No id is lost or added by a change of one record. -/
theorem ids_changeAt (id : Nat) (f : Existence → Existence) (entries : List (Nat × Existence)) :
    (changeAt id f entries).map Prod.fst = entries.map Prod.fst := by
  rw [changeAt, List.map_map]
  refine List.map_congr_left fun entry _ => ?_
  simp only [Function.comp_apply]
  split <;> rfl

theorem ids_withdrawn {s s' : State} {kind' : Kind} {id : Nat} (h : Withdrawn kind' id s s')
    (kind : Kind) : (roll s' kind).map Prod.fst = (roll s kind).map Prod.fst := by
  by_cases hkind : kind = kind'
  · subst hkind
    rw [h.roll, ids_changeAt]
  · rw [h.others kind hkind]

theorem ids_attachments {s s' : State} (h : Attachments s s') (kind : Kind) :
    (roll s' kind).map Prod.fst = (roll s kind).map Prod.fst := by
  induction h with
  | refl => rfl
  | tail _ hlast ih =>
      obtain ⟨kind', id, hattached⟩ := hlast
      rw [← ih]
      by_cases hkind : kind = kind'
      · subst hkind
        rw [hattached.roll, ids_changeAt]
      · rw [hattached.others kind hkind]

theorem kept_attachments {s s' : State} (h : Attachments s s') :
    (Suited s → Suited s') ∧ s'.nextId = s.nextId ∧ s'.issued = s.issued
      ∧ s'.failed = s.failed := by
  induction h with
  | refl => exact ⟨fun h => h, rfl, rfl, rfl⟩
  | tail _ hlast ih =>
      obtain ⟨kind', id, hattached⟩ := hlast
      obtain ⟨hsuited, hnext, hissued, hfailed⟩ := ih
      exact ⟨hattached.suited ∘ hsuited, hattached.nextId.trans hnext,
        hattached.issued.trans hissued, hattached.failed.trans hfailed⟩

theorem Bounded.of_ids {s s' : State} (h : Bounded s) (hnext : s'.nextId = s.nextId)
    (hids : ∀ kind, (roll s' kind).map Prod.fst = (roll s kind).map Prod.fst) : Bounded s' := by
  intro kind entry hentry
  have hid : entry.1 ∈ (roll s kind).map Prod.fst := hids kind ▸ List.mem_map_of_mem hentry
  obtain ⟨old, hold, heq⟩ := List.mem_map.mp hid
  rw [hnext, ← heq]
  exact h kind old hold

theorem Distinct.of_ids {s s' : State} (h : Distinct s)
    (hids : ∀ kind, (roll s' kind).map Prod.fst = (roll s kind).map Prod.fst) : Distinct s' :=
  fun kind => (hids kind).symm ▸ h kind

/-- What the parts of objects add to the traffic. -/
theorem inLife_attachments {cb : Callback} {t : State} {born : List Nat}
    {middle : Lifespan Existence}
    (hissued : t.issued = sys.bridge.issued ++ born) (hrequests : t.requests = sys.bridge.requests)
    (hborn : runMonitor (handle (handling kind i)) life (.told cb :: born.map (.born cb))
      = some middle)
    (htallied : Tallied kind i t middle) (hsuited : Suited t) (hbounded : Bounded t)
    (hids : t.failed = false → Distinct t) (h : Attachments t (sys.step cb).bridge) :
    ∃ life', runMonitor (handle (handling kind i)) life (traffic sys cb) = some life'
      ∧ InLife kind i (sys.step cb) life' := by
  obtain ⟨sent, life', hsent, hrun, hlife'⟩ := Accounts.attachments h middle htallied
  obtain ⟨hfits, hnext, hkept, hfailed⟩ := kept_attachments h
  refine ⟨life', ?_, hlife', hfits hsuited, hbounded.of_ids hnext (ids_attachments h),
    fun hok => (hids (hfailed ▸ hok)).of_ids (ids_attachments h)⟩
  rw [traffic, hkept, hissued, hsent, hrequests, List.drop_left, List.drop_left, ← List.cons_append,
    runMonitor_append, hborn, Option.bind_some, hrun]

/-- Every other callback is in order for every object. -/
theorem inLife_listen {cb : Callback} (hi : i ≠ 0)
    (hstep : (sys.step cb).bridge = listen cb sys.bridge) (h : InLife kind i sys life) :
    ∃ life', runMonitor (handle (handling kind i)) life (traffic sys cb) = some life'
      ∧ InLife kind i (sys.step cb) life' := by
  have hok : (sys.step cb).bridge.failed = false → Distinct sys.bridge := fun hok =>
    h.distinct (not_failed_of_step (failed_listen cb sys.bridge) (hstep ▸ hok))
  cases hstep ▸ notice_listen cb sys.bridge with
  | silent hcb hsilent =>
      have hissued : (sys.step cb).bridge.issued = sys.bridge.issued ++ [] := by
        rw [hsilent.issued, List.append_nil]
      refine inLife_attachments hissued hsilent.requests ?_
        (h.tallied.congr (hsilent.roll kind) hsilent.nextId) (hsilent.suited h.suited)
        (h.bounded.silent hsilent) (fun hf => (hok hf).of_ids fun kind => ?_) .refl
      · exact (runMonitor_singleton _).trans (handle_told_other (hcb kind i) life)
      · rw [hsilent.roll kind]
  | attached t hcb hsilent hattached =>
      have hissued : t.issued = sys.bridge.issued ++ [] := by
        rw [hsilent.issued, List.append_nil]
      refine inLife_attachments hissued hsilent.requests ?_
        (h.tallied.congr (hsilent.roll kind) hsilent.nextId) (hsilent.suited h.suited)
        (h.bounded.silent hsilent) (fun hf => (hok ?_).of_ids fun kind => ?_) hattached
      · exact (runMonitor_singleton _).trans (handle_told_other (hcb kind i) life)
      · rw [(kept_attachments hattached).2.2.2, hf]
      · rw [hsilent.roll kind]
  | created kind' hcb hnew hcreates =>
      obtain ⟨t, hcreated, hattached⟩ := hcreates
      obtain ⟨born, life', hissued, hrun, hlife'⟩ :=
        handle_created hi hnew h.tallied h.bounded hcreated
      refine inLife_attachments hissued hcreated.requests ?_ hlife' (hcreated.suited h.suited)
        (bounded_created h.bounded hcreated) (fun hf => ?_) hattached
      · rw [runMonitor_cons, handle_told_other (hcb kind i) life, Option.bind_some, hrun]
      · have hbefore := hok ((kept_attachments hattached).2.2.2.trans hf)
        exact distinct_created hbefore h.bounded hcreated hf
  | withdrawn kind' id hcb hwithdrawn =>
      obtain ⟨life', hrun, hlife'⟩ := handle_withdrawn (hcb kind i) h.tallied hwithdrawn
      have hissued : (sys.step cb).bridge.issued = sys.bridge.issued ++ [] := by
        rw [hwithdrawn.issued, List.append_nil]
      exact inLife_attachments hissued hwithdrawn.requests ((runMonitor_singleton _).trans hrun)
        hlife' (hwithdrawn.suited h.suited)
        (h.bounded.of_ids hwithdrawn.nextId (ids_withdrawn hwithdrawn))
        (fun hf => (hok hf).of_ids (ids_withdrawn hwithdrawn)) .refl

theorem inLife_step (hi : i ≠ 0) (sys : System) (life : Lifespan Existence) (cb : Callback)
    (h : InLife kind i sys life) :
    ∃ life', runMonitor (handle (handling kind i)) life (traffic sys cb) = some life'
      ∧ InLife kind i (sys.step cb) life' := by
  cases cb with
  | managerManageStart =>
      exact inLife_transacts rfl (fun kind _ => by cases kind <;> rfl) h
        (transacts_managerManageStart sys)
  | managerRenderStart =>
      exact inLife_transacts rfl (fun kind _ => by cases kind <;> rfl) h
        (transacts_managerRenderStart sys)
  | _ => exact inLife_listen hi rfl h

/-- At the start there is no object. -/
theorem inLife_initial (kind : Kind) (i : Nat) (cfg : Config) (loads : List (Option Config))
    (decode : List UInt8 → String) : InLife kind i (initialSystem cfg loads decode) .unborn := by
  have hnone : ∀ kind, roll (initialSystem cfg loads decode).bridge kind = [] := by
    intro kind
    cases kind <;> rfl
  refine ⟨⟨fun v hv => ?_, fun _ => rfl⟩, fun w hw => ?_, fun kind entry hentry => ?_,
    fun _ kind => ?_⟩
  · rw [hnone] at hv
    contradiction
  · exact absurd hw List.not_mem_nil
  · rw [hnone] at hentry
    contradiction
  · rw [hnone]
    exact List.nodup_nil

/-- Destroying an object ends its life. -/
theorem dead_of_destroys {life' : Lifespan Existence}
    (h : handle (handling kind i) life (.asked (kind.destroys i)) = some life') :
    life' = .dead := by
  have hrole : handling kind i (.asked (kind.destroys i)) = .destroy :=
    (handling_destroys _ _ _ _).trans (if_pos ⟨rfl, rfl⟩)
  unfold handle at h
  rw [hrole] at h
  cases life with
  | alive v =>
      simp only [Option.ite_none_right_eq_some, Option.some.injEq] at h
      exact h.2.symm
  | unborn => contradiction
  | dead => contradiction

/-- **Lives of objects**: in every run the traffic about a window, an output or a seat comes in
order.  It is born once; it gets its part once at most; nothing is asked of it before it is born
or after the compositor withdrew it, except that it is then destroyed; after that nothing is asked
of it any more.  A record tells exactly how far its object is. -/
theorem objects_in_order (cfg : Config) (loads : List (Option Config))
    (decode : List UInt8 → String) (cbs : List Callback) (kind : Kind) {i : Nat} (hi : i ≠ 0) :
    let start := initialSystem cfg loads decode
    (∃ life, runMonitor (handle (handling kind i)) .unborn (wire cbs start) = some life
      ∧ ∀ v, (i, v) ∈ roll (runSystem cbs start).bridge kind → life = .alive v)
    ∧ ∀ before after, wire cbs start = before ++ .asked (kind.destroys i) :: after →
        ∀ e ∈ after, handling kind i e = .other ∨ handling kind i e = .withdrawn := by
  intro start
  have hstart : InLife kind i start .unborn := inLife_initial kind i cfg loads decode
  obtain ⟨life, hrun, h⟩ := runMonitor_wire (inLife_step hi) cbs hstart
  refine ⟨⟨life, hrun, h.tallied.record⟩, fun before after heq => ?_⟩
  rw [heq, runMonitor_append] at hrun
  obtain ⟨old, -, hrest⟩ := Option.bind_eq_some_iff.mp hrun
  rw [runMonitor_cons] at hrest
  obtain ⟨last, hlast, hafter⟩ := Option.bind_eq_some_iff.mp hrest
  rw [dead_of_destroys hlast] at hafter
  exact other_of_dead hafter

end Runs

/-- A window that is managed, shown and closed. -/
def closingCallbacks : List Callback :=
  [.registryXkb, .managerOutput, .outputPosition 1 0 0, .outputDimensions 1 800 600,
    .managerWindow, .managerManageStart, .windowDimensions 2 400 300, .managerRenderStart,
    .windowClosed 2, .managerManageStart]

theorem objects_in_order_closing :
    let start := initialSystem defaultConfig [] fun _ => ""
    ((wire closingCallbacks start).map (handling .window 2)).filter (· ≠ .other)
        = [.born, .attach, .use, .use, .use, .use, .use, .use, .usePart, .use, .usePart, .usePart,
          .withdrawn, .destroy]
      ∧ ∃ life, runMonitor (handle (handling .window 2)) .unborn (wire closingCallbacks start)
        = some life := by
  obtain ⟨⟨life, hrun, -⟩, -⟩ := objects_in_order defaultConfig [] (fun _ => "")
    closingCallbacks .window (i := 2) (by decide)
  exact ⟨by decide +kernel, life, hrun⟩

end XmonadWayland.Bridge
