import XmonadWayland.Bridge.Mirror
import XmonadWayland.Bridge.Stage

/-!
# XmonadWayland.Bridge.Stream

The events the bridge hands to Haskell are well formed.  A record of the bridge says
where its window or output is in its life, and the stages that publish the lifecycle
deliver events that move the life along with the record (`Stream`).
-/

namespace XmonadWayland.Bridge

/-! ## Events about others -/

/-- An event of another id says nothing about the window. -/
theorem windowRole_of_ident {w : Nat} {d : Delivered} (h : d.ident ≠ w) :
    windowRole w d = .other := by
  cases d with
  | event kind ident a b c e => exact if_pos h
  | windowString kind ident text => exact if_neg fun hw => h hw.1

/-- Nor about the output. -/
theorem outputRole_of_ident {o : Nat} {d : Delivered} (h : d.ident ≠ o) :
    outputRole o d = .other := by
  cases d with
  | event kind ident a b c e => exact if_pos h
  | windowString kind ident text => rfl

/-- Events about windows and events about outputs have kinds of their own. -/
theorem windowRole_of_kind {w : Nat} {d : Delivered}
    (h : d.kind ∉ ([3, 4, 5, 11, 12, 13, 21, 25, 26, 27] : List Int)) :
    windowRole w d = .other := by
  cases d with
  | event kind ident a b c e =>
      simp only [Delivered.kind, List.mem_cons, List.not_mem_nil, or_false, not_or] at h
      simp [windowRole, windowUses, h]
  | windowString kind ident text =>
      simp only [Delivered.kind, List.mem_cons, List.not_mem_nil, or_false, not_or] at h
      simp [windowRole, h]

/-- Nor does an event of another kind about an output. -/
theorem outputRole_of_kind {o : Nat} {d : Delivered} (h : d.kind ∉ ([1, 2, 14] : List Int)) :
    outputRole o d = .other := by
  cases d with
  | event kind ident a b c e =>
      simp only [Delivered.kind, List.mem_cons, List.not_mem_nil, or_false, not_or] at h
      simp [outputRole, h]
  | windowString kind ident text => rfl

/-- Events of records, of which only those of one record concern the object. -/
theorem run_records {ρ α : Type} {role : Delivered → Role α} {i : Nat}
    (hrole : ∀ d : Delivered, d.ident ≠ i → role d = .other) (key : ρ → Nat) (recs : List ρ)
    {f : ρ → List Delivered} (hid : ∀ r, ∀ d ∈ f r, d.ident = key r)
    (hnd : (recs.map key).Nodup) (life : Lifespan α) :
    (∃ r ∈ recs, key r = i
        ∧ runMonitor (live role) life (recs.flatMap f) = runMonitor (live role) life (f r))
      ∨ (∀ r ∈ recs, key r ≠ i) ∧ runMonitor (live role) life (recs.flatMap f) = some life :=
  runMonitor_flatMap_keyed hnd fun r _ hne e he t =>
    live_of_other (hrole e (hid r e he ▸ hne)) t

/-- Events a live object takes. -/
theorem run_uses {α : Type} {role : Delivered → Role α} {ds : List Delivered} {value : α}
    (h : ∀ d ∈ ds, role d = .uses ∨ role d = .other) :
    runMonitor (live role) (.alive value) ds = some (.alive value) := by
  induction ds with
  | nil => rfl
  | cons d ds ih =>
      have hd : live role (.alive value) d = some (.alive value) :=
        (h d List.mem_cons_self).elim (fun hr => (live_of_uses hr).mpr ⟨⟨value, rfl⟩, rfl⟩)
          fun hr => live_of_other hr _
      rw [runMonitor_cons, hd, Option.bind_some]
      exact ih fun d' hd' => h d' (List.mem_cons_of_mem d hd')

/-! ## Records and lives -/

/-- The life of a window, as its record tells.  A doomed window was closed before it
was announced. -/
structure WindowAt (doomed : Prop) (w : Nat) (s : State) (life : Lifespan Unit) : Prop where
  record : ∀ r ∈ s.windows, r.id = w → life = if r.announced then .alive () else .unborn
  absent : (∀ r ∈ s.windows, r.id ≠ w) → life ≠ .alive ()
  fresh : s.nextId < w → life = .unborn
  doomed : doomed → life = .unborn ∧ w ≤ s.nextId
    ∧ ∀ r ∈ s.windows, r.id = w → r.closed = true ∧ r.announced = false

/-- The life of an output, as its record tells. -/
structure OutputAt (o : Nat) (s : State) (life : Lifespan Rect) : Prop where
  unannounced : ∀ r ∈ s.outputs, r.id = o → r.announced = false → life = .unborn
  announced : ∀ r ∈ s.outputs, r.id = o → r.announced = true →
    ∃ rect, life = .alive rect ∧ (r.dirty = false → rect = r.geometry)
  absent : (∀ r ∈ s.outputs, r.id ≠ o) → life.value = none
  fresh : s.nextId < o → life = .unborn

/-- The log of delivered events fits the records. -/
structure Stream (doomed : Nat → Prop) (log : List Delivered) (s : State) : Prop where
  windows : ∀ w, ∃ life, runMonitor (live (windowRole w)) .unborn log = some life
    ∧ WindowAt (doomed w) w s life
  outputs : ∀ o, ∃ life, runMonitor (live (outputRole o)) .unborn log = some life
    ∧ OutputAt o s life
  dirty : ∀ r ∈ s.outputs, r.announced = false → (r.hasPosition || r.hasDimensions) = true →
    r.dirty = true

section Extend

variable {doomed : Nat → Prop} {log ds : List Delivered} {s s' : State}

/-- Events that move every life along with its record. -/
theorem Stream.extend (h : Stream doomed log s)
    (hw : ∀ w life, WindowAt (doomed w) w s life → ∃ life',
      runMonitor (live (windowRole w)) life ds = some life' ∧ WindowAt (doomed w) w s' life')
    (ho : ∀ o life, OutputAt o s life → ∃ life',
      runMonitor (live (outputRole o)) life ds = some life' ∧ OutputAt o s' life')
    (hd : ∀ r ∈ s'.outputs, r.announced = false → (r.hasPosition || r.hasDimensions) = true →
      r.dirty = true) : Stream doomed (log ++ ds) s' where
  windows w := by
    obtain ⟨life, hrun, hat⟩ := h.windows w
    obtain ⟨life', hrun', hat'⟩ := hw w life hat
    exact ⟨life', by rw [runMonitor_append, hrun, Option.bind_some, hrun'], hat'⟩
  outputs o := by
    obtain ⟨life, hrun, hat⟩ := h.outputs o
    obtain ⟨life', hrun', hat'⟩ := ho o life hat
    exact ⟨life', by rw [runMonitor_append, hrun, Option.bind_some, hrun'], hat'⟩
  dirty := hd

/-- Events of other kinds leave every window's life. -/
theorem run_ignored_windows (w : Nat) (life : Lifespan Unit)
    (h : ∀ d ∈ ds, d.kind ∉ ([3, 4, 5, 11, 12, 13, 21, 25, 26, 27] : List Int)) :
    runMonitor (live (windowRole w)) life ds = some life :=
  runMonitor_of_ignored fun d hd t => live_of_other (windowRole_of_kind (h d hd)) t

/-- Events of other kinds leave every output's life. -/
theorem run_ignored_outputs (o : Nat) (life : Lifespan Rect)
    (h : ∀ d ∈ ds, d.kind ∉ ([1, 2, 14] : List Int)) :
    runMonitor (live (outputRole o)) life ds = some life :=
  runMonitor_of_ignored fun d hd t => live_of_other (outputRole_of_kind (h d hd)) t

/-- More ids may have been given out. -/
theorem WindowAt.mono {dead : Prop} {w : Nat} {life : Lifespan Unit} (h : WindowAt dead w s life)
    (hw : s'.windows = s.windows) (hn : s.nextId ≤ s'.nextId) : WindowAt dead w s' life where
  record := hw ▸ h.record
  absent := hw ▸ h.absent
  fresh hlt := h.fresh (hn.trans_lt hlt)
  doomed hd := by
    obtain ⟨hlife, hle, hrecord⟩ := h.doomed hd
    exact ⟨hlife, hle.trans hn, hw ▸ hrecord⟩

/-- The same outputs and a later counter keep the log in step. -/
theorem OutputAt.mono {o : Nat} {life : Lifespan Rect} (h : OutputAt o s life)
    (ho : s'.outputs = s.outputs) (hn : s.nextId ≤ s'.nextId) : OutputAt o s' life where
  unannounced := ho ▸ h.unannounced
  announced := ho ▸ h.announced
  absent := ho ▸ h.absent
  fresh hlt := h.fresh (hn.trans_lt hlt)

/-- The same records and a later counter keep the stream. -/
theorem Stream.mono (h : Stream doomed log s) (hw : s'.windows = s.windows)
    (ho : s'.outputs = s.outputs) (hn : s.nextId ≤ s'.nextId) : Stream doomed log s' where
  windows w := (h.windows w).imp fun _ hat => ⟨hat.1, hat.2.mono hw hn⟩
  outputs o := (h.outputs o).imp fun _ hat => ⟨hat.1, hat.2.mono ho hn⟩
  dirty := ho ▸ h.dirty

/-- A quiet change keeps the log in step with the window. -/
theorem WindowAt.quiet {still dead : Prop} {w : Nat} {life : Lifespan Unit}
    (h : WindowAt dead w s life) (hq : Quiet still s s') : WindowAt dead w s' life := by
  obtain ⟨f, hf, heq⟩ := hq.windows
  refine ⟨?_, ?_, ?_, fun hd => ?_⟩
  · rw [heq, List.forall_mem_map]
    intro r hr hid
    rw [(hf r).announced]
    exact h.record r hr ((hf r).id.symm.trans hid)
  · rw [heq, List.forall_mem_map]
    exact fun hnone => h.absent fun r hr hid => hnone r hr ((hf r).id.trans hid)
  · rw [hq.nextId]
    exact h.fresh
  · obtain ⟨hlife, hle, hrecord⟩ := h.doomed hd
    refine ⟨hlife, hq.nextId ▸ hle, ?_⟩
    rw [heq, List.forall_mem_map]
    intro r hr hid
    obtain ⟨hclosed, hannounced⟩ := hrecord r hr ((hf r).id.symm.trans hid)
    exact ⟨(hf r).closed hclosed, (hf r).announced.trans hannounced⟩

/-- A quiet change keeps the log in step with the output. -/
theorem OutputAt.quiet {still : Prop} {o : Nat} {life : Lifespan Rect} (h : OutputAt o s life)
    (hq : Quiet still s s') : OutputAt o s' life := by
  obtain ⟨f, hf, heq⟩ := hq.outputs
  refine ⟨?_, ?_, ?_, ?_⟩
  · rw [heq, List.forall_mem_map]
    intro r hr hid hannounced
    exact h.unannounced r hr ((hf r).id.symm.trans hid) ((hf r).announced.symm.trans hannounced)
  · rw [heq, List.forall_mem_map]
    intro r hr hid hannounced
    obtain ⟨rect, hlife, hrect⟩ := h.announced r hr ((hf r).id.symm.trans hid)
      ((hf r).announced.symm.trans hannounced)
    refine ⟨rect, hlife, fun hclean => ?_⟩
    rcases (hf r).geometry with hdirty | ⟨hsame, hgeometry, -, -⟩
    · rw [hdirty] at hclean
      contradiction
    · exact (hrect (hsame.symm.trans hclean)).trans hgeometry.symm
  · rw [heq, List.forall_mem_map]
    exact fun hnone => h.absent fun r hr hid => hnone r hr ((hf r).id.trans hid)
  · rw [hq.nextId]
    exact h.fresh

/-- A quiet change keeps the stream. -/
theorem Stream.quiet {still : Prop} (h : Stream doomed log s) (hq : Quiet still s s') :
    Stream doomed log s' where
  windows w := (h.windows w).imp fun _ hat => ⟨hat.1, hat.2.quiet hq⟩
  outputs o := (h.outputs o).imp fun _ hat => ⟨hat.1, hat.2.quiet hq⟩
  dirty := by
    obtain ⟨f, hf, heq⟩ := hq.outputs
    rw [heq, List.forall_mem_map]
    intro r hr hannounced hgiven
    rcases (hf r).geometry with hdirty | ⟨hsame, -, hposition, hdimensions⟩
    · exact hdirty
    · rw [hsame]
      rw [hposition, hdimensions] at hgiven
      exact h.dirty r hr ((hf r).announced.symm.trans hannounced) hgiven

end Extend

/-! ## Creations -/

section Creations

variable {doomed : Nat → Prop} {log : List Delivered} {s : State}

/-- Announcing a window keeps the stream. -/
theorem stream_managerWindow (h : Stream doomed log s) (hf : (managerWindow s).failed = false) :
    Stream doomed log (managerWindow s) := by
  obtain ⟨-, hid⟩ := newId_of_not_failed (s := s) hf
  simp only [managerWindow, hid]
  have hle : s.nextId ≤ s.nextId + 1 := Nat.le_succ _
  refine ⟨fun w => ?_, fun o => (h.outputs o).imp fun _ hat => ⟨hat.1, hat.2.mono rfl hle⟩, h.dirty⟩
  obtain ⟨life, hrun, hat⟩ := h.windows w
  refine ⟨life, hrun, fun r hr hid => ?_, fun hnone => ?_, fun hlt => hat.fresh (hle.trans_lt hlt),
    fun hd => ?_⟩
  · rcases List.mem_append.mp hr with hold | hnew
    · exact hat.record r hold hid
    · rw [List.mem_singleton.mp hnew] at hid ⊢
      exact hat.fresh (hid ▸ Nat.lt_succ_self s.nextId)
  · exact hat.absent fun r hr => hnone r (List.mem_append_left _ hr)
  · obtain ⟨hlife, hgiven, hrecord⟩ := hat.doomed hd
    refine ⟨hlife, hgiven.trans hle, fun r hr hid => ?_⟩
    rcases List.mem_append.mp hr with hold | hnew
    · exact hrecord r hold hid
    · rw [List.mem_singleton.mp hnew] at hid
      have hw : s.nextId + 1 = w := hid
      omega

/-- Announcing an output keeps the stream. -/
theorem stream_managerOutput (h : Stream doomed log s) (hf : (managerOutput s).failed = false) :
    Stream doomed log (managerOutput s) := by
  simp only [managerOutput, failed_attachLayerOutput] at hf
  obtain ⟨-, hid⟩ := newId_of_not_failed (s := s) hf
  simp only [managerOutput, hid]
  have hle : s.nextId ≤ s.nextId + 1 := Nat.le_succ _
  refine Stream.quiet ?_ (quiet_attachLayerOutput _ _)
  refine ⟨fun w => (h.windows w).imp fun _ hat => ⟨hat.1, hat.2.mono rfl hle⟩, fun o => ?_, ?_⟩
  · obtain ⟨life, hrun, hat⟩ := h.outputs o
    refine ⟨life, hrun, fun r hr hid hannounced => ?_, fun r hr hid hannounced => ?_,
      fun hnone => ?_, fun hlt => hat.fresh (hle.trans_lt hlt)⟩
    · rcases List.mem_append.mp hr with hold | hnew
      · exact hat.unannounced r hold hid hannounced
      · rw [List.mem_singleton.mp hnew] at hid
        exact hat.fresh (hid ▸ Nat.lt_succ_self s.nextId)
    · rcases List.mem_append.mp hr with hold | hnew
      · exact hat.announced r hold hid hannounced
      · rw [List.mem_singleton.mp hnew] at hannounced
        contradiction
    · exact hat.absent fun r hr => hnone r (List.mem_append_left _ hr)
  · intro r hr hannounced hgiven
    rcases List.mem_append.mp hr with hold | hnew
    · exact h.dirty r hold hannounced hgiven
    · rw [List.mem_singleton.mp hnew] at hgiven
      contradiction

/-- Announcing a seat keeps the stream. -/
theorem stream_managerSeat (h : Stream doomed log s) (hf : (managerSeat s).failed = false) :
    Stream doomed log (managerSeat s) := by
  simp only [managerSeat, failed_attachLayerSeat] at hf
  obtain ⟨-, hid⟩ := newId_of_not_failed (s := s) hf
  simp only [managerSeat, hid]
  refine Stream.quiet ?_ (quiet_attachLayerSeat _ _)
  exact h.mono rfl rfl (Nat.le_succ _)

/-- Callbacks outside the two transactions keep the log fitting. -/
theorem stream_listen {cb : Callback} (h : Stream doomed log s)
    (hf : (listen cb s).failed = false) : Stream doomed log (listen cb s) :=
  listen_induction (P := fun s' => s'.failed = false → Stream doomed log s')
    (stream_managerWindow h) (stream_managerOutput h) (stream_managerSeat h)
    (fun _ hquiet _ => h.quiet hquiet) cb hf

end Creations

/-! ## Publishing the lifecycle -/

section Publishing

variable {doomed : Nat → Prop} {sys : System}

/-- Delivered events are logged in order. -/
theorem delivered_deliverAll (ds : List Delivered) (rt : Runtime) :
    (ds.foldl Runtime.deliver rt).delivered = rt.delivered ++ ds := by
  induction ds generalizing rt with
  | nil => exact (List.append_nil _).symm
  | cons d ds ih =>
      rw [List.foldl_cons, ih, (deliver_cases rt d).1, List.append_assoc]
      rfl

/-- An output's record ends with its event. -/
theorem stream_dropOutputs (hl : Ledger sys.bridge)
    (h : Stream doomed sys.runtime.delivered sys.bridge) :
    Stream doomed (dropOutputs sys).runtime.delivered (dropOutputs sys).bridge := by
  have hlog : (dropOutputs sys).runtime.delivered = _ := delivered_deliverAll _ sys.runtime
  rw [hlog]
  refine h.extend (fun w life hat => ⟨life, run_ignored_windows w life ?_, hat.mono rfl le_rfl⟩)
    (fun o life hat => ?_) fun r hr => h.dirty r (List.mem_of_mem_filter hr)
  · exact List.forall_mem_map.mpr fun r _ => by simp [Delivered.kind]
  · rw [List.map_eq_flatMap]
    have hkept : ∀ r ∈ (dropOutputs sys).bridge.outputs,
        r ∈ sys.bridge.outputs ∧ r.removed = false := fun r hr =>
      (List.mem_filter.mp hr).imp_right fun hlive => by simpa using hlive
    rcases run_records (fun d => outputRole_of_ident) Output.id
      ((sys.bridge.outputs.filter Output.removed).filter Output.announced)
      (f := fun output => [Delivered.event 2 output.id 0 0 0 0])
      (fun r d hd => List.mem_singleton.mp hd ▸ rfl)
      (hl.outputs.nodup.sublist ((List.filter_sublist.trans List.filter_sublist).map _)) life
      with ⟨r, hr, hid, hrun⟩ | ⟨hnone, hrun⟩
    · obtain ⟨hremoved, hannounced⟩ := List.mem_filter.mp hr
      obtain ⟨hmem, hremoved⟩ := List.mem_filter.mp hremoved
      obtain ⟨rect, rfl, -⟩ := hat.announced r hmem hid hannounced
      have hgone : ∀ r' ∈ (dropOutputs sys).bridge.outputs, r'.id ≠ o := fun r' hr' hid' => by
        obtain ⟨hmem', hlive⟩ := hkept r' hr'
        rw [eq_of_numbered hl.outputs hmem' hmem (hid'.trans hid.symm), hremoved] at hlive
        contradiction
      refine ⟨.dead, ?_, fun r' hr' hid' => absurd hid' (hgone r' hr'),
        fun r' hr' hid' => absurd hid' (hgone r' hr'), fun _ => rfl,
        fun hlt => absurd (hat.fresh hlt) Lifespan.alive_ne_unborn⟩
      rw [hrun, runMonitor_singleton, live_of_closes (by simp [outputRole, hid])]
      exact ⟨⟨rect, rfl⟩, rfl⟩
    · refine ⟨life, hrun, fun r hr => hat.unannounced r (hkept r hr).1,
        fun r hr => hat.announced r (hkept r hr).1, fun hgone => ?_, hat.fresh⟩
      by_cases hold : ∃ r ∈ sys.bridge.outputs, r.id = o
      · -- The record was dropped without an event, so it was never announced.
        obtain ⟨r, hr, hid⟩ := hold
        have hremoved : r.removed = true := by
          by_contra hlive
          exact hgone r (List.mem_filter.mpr ⟨hr, by simpa using hlive⟩) hid
        have hunannounced : r.announced = false := by
          by_contra hannounced
          exact hnone r (List.mem_filter.mpr ⟨List.mem_filter.mpr ⟨hr, hremoved⟩,
            by simpa using hannounced⟩) hid
        rw [hat.unannounced r hr hid hunannounced]
        rfl
      · exact hat.absent fun r hr hid => hold ⟨r, hr, hid⟩

/-- A window's record ends with its event. -/
theorem stream_dropWindows (hl : Ledger sys.bridge)
    (h : Stream doomed sys.runtime.delivered sys.bridge) :
    Stream doomed (dropWindows sys).runtime.delivered (dropWindows sys).bridge := by
  have hlog : (dropWindows sys).runtime.delivered = _ := delivered_deliverAll _ sys.runtime
  rw [hlog]
  refine h.extend (fun w life hat => ?_)
    (fun o life hat => ⟨life, run_ignored_outputs o life ?_, hat.mono rfl le_rfl⟩) h.dirty
  · rw [List.map_eq_flatMap]
    have hkept : ∀ r ∈ (dropWindows sys).bridge.windows,
        r ∈ sys.bridge.windows ∧ r.closed = false := fun r hr =>
      (List.mem_filter.mp hr).imp_right fun hlive => by simpa using hlive
    rcases run_records (fun d => windowRole_of_ident) Window.id
      ((sys.bridge.windows.filter Window.closed).filter Window.announced)
      (f := fun w => [Delivered.event 4 w.id 0 0 0 0])
      (fun r d hd => List.mem_singleton.mp hd ▸ rfl)
      (hl.windows.nodup.sublist ((List.filter_sublist.trans List.filter_sublist).map _)) life
      with ⟨r, hr, hid, hrun⟩ | ⟨hnone, hrun⟩
    · obtain ⟨hclosed, hannounced⟩ := List.mem_filter.mp hr
      obtain ⟨hmem, hclosed⟩ := List.mem_filter.mp hclosed
      have halive := hat.record r hmem hid
      rw [if_pos hannounced] at halive
      subst halive
      have hgone : ∀ r' ∈ (dropWindows sys).bridge.windows, r'.id ≠ w := fun r' hr' hid' => by
        obtain ⟨hmem', hlive⟩ := hkept r' hr'
        rw [eq_of_numbered hl.windows hmem' hmem (hid'.trans hid.symm), hclosed] at hlive
        contradiction
      refine ⟨.dead, ?_, fun r' hr' hid' => absurd hid' (hgone r' hr'), 
        fun _ => Lifespan.alive_ne_dead.symm, fun hlt => ?_, fun hd => ?_⟩
      · rw [hrun, runMonitor_singleton, live_of_closes (by simp [windowRole, hid])]
        exact ⟨⟨(), rfl⟩, rfl⟩
      · exact absurd (hat.fresh hlt) Lifespan.alive_ne_unborn
      · exact absurd (hat.doomed hd).1 Lifespan.alive_ne_unborn
    · refine ⟨life, hrun, fun r hr => hat.record r (hkept r hr).1, fun hgone => ?_, hat.fresh,
        fun hd => ?_⟩
      · by_cases hold : ∃ r ∈ sys.bridge.windows, r.id = w
        · -- The record was dropped without an event, so it was never announced.
          obtain ⟨r, hr, hid⟩ := hold
          have hclosed : r.closed = true := by
            by_contra hlive
            exact hgone r (List.mem_filter.mpr ⟨hr, by simpa using hlive⟩) hid
          have hunannounced : ¬r.announced = true := fun hannounced =>
            hnone r (List.mem_filter.mpr ⟨List.mem_filter.mpr ⟨hr, hclosed⟩, hannounced⟩) hid
          rw [hat.record r hr hid, if_neg hunannounced]
          exact Lifespan.alive_ne_unborn.symm
        · exact hat.absent fun r hr hid => hold ⟨r, hr, hid⟩
      · obtain ⟨hlife, hle, hrecord⟩ := hat.doomed hd
        exact ⟨hlife, hle, fun r hr => hrecord r (hkept r hr).1⟩
  · exact List.forall_mem_map.mpr fun r _ => by simp [Delivered.kind]

/-- The events of an output carry its id. -/
theorem ident_outputEvents (r : Output) : ∀ d ∈ r.events, d.ident = r.id := by
  intro d hd
  rcases List.mem_append.mp hd with hd | hd <;> split at hd
  · exact List.mem_singleton.mp hd ▸ rfl
  · contradiction
  · exact List.mem_singleton.mp hd ▸ rfl
  · contradiction

/-- Publishing a complete output leaves it with its geometry. -/
theorem run_outputEvents {o : Nat} {s : State} {life : Lifespan Rect} (hat : OutputAt o s life)
    (hdirty : ∀ r ∈ s.outputs, r.announced = false → (r.hasPosition || r.hasDimensions) = true →
      r.dirty = true)
    {r : Output} (hr : r ∈ s.outputs) (hid : r.id = o) (hcomplete : r.complete = true) :
    runMonitor (live (outputRole o)) life r.events = some (.alive r.geometry) := by
  have hset : outputRole o (.event 1 r.id r.x r.y r.width r.height) = .sets r.geometry := by
    simp [outputRole, hid, Output.geometry]
  have hfirst : runMonitor (live (outputRole o)) life (if r.dirty then
      [.event 1 r.id r.x r.y r.width r.height] else []) = some (.alive r.geometry) := by
    by_cases hd : r.dirty
    · rw [if_pos hd, runMonitor_singleton, live_of_sets hset]
      refine ⟨?_, rfl⟩
      cases hannounced : r.announced with
      | false =>
          rw [hat.unannounced r hr hid hannounced]
          exact Lifespan.unborn_ne_dead
      | true =>
          obtain ⟨rect, rfl, -⟩ := hat.announced r hr hid hannounced
          exact Lifespan.alive_ne_dead
    · rw [if_neg hd, runMonitor_nil]
      have hannounced : r.announced = true := by
        by_contra hun
        refine hd (hdirty r hr (by simpa using hun) ?_)
        simp only [Output.complete, Bool.and_eq_true] at hcomplete
        rw [hcomplete.1, Bool.true_or]
      obtain ⟨rect, rfl, hrect⟩ := hat.announced r hr hid hannounced
      rw [hrect (by simpa using hd)]
  rw [Output.events, runMonitor_append, hfirst, Option.bind_some]
  refine run_uses fun d hd => ?_
  split at hd
  · rw [List.mem_singleton.mp hd]
    exact Or.inl (by simp [outputRole, hid])
  · contradiction

/-- When every output is complete, all are published. -/
theorem publishOutputs_eq (h : (publishOutputs sys).bridge.failed = false) :
    (∀ r ∈ sys.bridge.outputs, r.complete = true)
      ∧ publishOutputs sys = (sys.deliverAll (sys.bridge.outputs.flatMap Output.events)).onBridge
        fun s => { s with outputs := s.outputs.map Output.published } := by
  unfold publishOutputs at h ⊢
  simp only at h ⊢
  split at h
  · next hrest =>
    have hready : sys.bridge.outputs.takeWhile Output.complete = sys.bridge.outputs := by
      have hsplit := List.takeWhile_append_dropWhile (p := Output.complete) (l := sys.bridge.outputs)
      rwa [hrest, List.append_nil] at hsplit
    have hall : sys.bridge.outputs.all Output.complete = true := by
      rw [← hready]
      exact List.all_takeWhile
    refine ⟨List.all_eq_true.mp hall, ?_⟩
    rw [if_pos hrest, hready, hrest]
    simp only [List.append_nil]
    rfl
  · contradiction

theorem announced_published {r : Output} (hcomplete : r.complete = true)
    (hdirty : r.announced = false → (r.hasPosition || r.hasDimensions) = true → r.dirty = true) :
    r.published.announced = true := by
  simp only [Output.complete, Bool.and_eq_true] at hcomplete
  cases hun : r.announced with
  | true => simp [Output.published, hun]
  | false =>
      have hd := hdirty hun (by rw [hcomplete.1, Bool.true_or])
      simp [Output.published, hd]

/-- Publishing outputs keeps the stream. -/
theorem stream_publishOutputs (hl : Ledger sys.bridge)
    (h : Stream doomed sys.runtime.delivered sys.bridge)
    (hf : (publishOutputs sys).bridge.failed = false) :
    Stream doomed (publishOutputs sys).runtime.delivered (publishOutputs sys).bridge := by
  obtain ⟨hcomplete, heq⟩ := publishOutputs_eq hf
  have hlog : (publishOutputs sys).runtime.delivered
      = sys.runtime.delivered ++ sys.bridge.outputs.flatMap Output.events := by
    rw [heq]
    exact delivered_deliverAll _ sys.runtime
  rw [hlog, heq]
  refine h.extend (fun w life hat => ⟨life, run_ignored_windows w life fun d hd => ?_,
    hat.mono rfl le_rfl⟩) (fun o life hat => ?_) ?_
  · obtain ⟨r, -, hd⟩ := List.mem_flatMap.mp hd
    rcases kind_outputEvents r d hd with hk | hk <;> rw [hk] <;> decide
  · rcases run_records (fun d => outputRole_of_ident) Output.id _ ident_outputEvents
      hl.outputs.nodup life with ⟨r, hr, hid, hrun⟩ | ⟨hnone, hrun⟩
    · have hannounced := announced_published (hcomplete r hr) (h.dirty r hr)
      have hsame : ∀ r' ∈ sys.bridge.outputs, r'.published.id = o → r' = r := fun r' hr' hid' =>
        eq_of_numbered hl.outputs hr' hr (hid'.trans hid.symm)
      refine ⟨.alive r.geometry, hrun.trans (run_outputEvents hat h.dirty hr hid (hcomplete r hr)),
        List.forall_mem_map.mpr fun r' hr' hid' hun => ?_,
        List.forall_mem_map.mpr fun r' hr' hid' _ => ?_, fun hnone => ?_, fun hlt => ?_⟩
      · rw [hsame r' hr' hid', hannounced] at hun
        contradiction
      · rw [hsame r' hr' hid']
        exact ⟨r.geometry, rfl, fun _ => rfl⟩
      · exact absurd hid (hnone r.published (List.mem_map_of_mem hr))
      · have hle := hl.outputs.bounded _ (List.mem_map_of_mem (f := Output.id) hr)
        rw [hid] at hle
        exact absurd hlt hle.not_gt
    · refine ⟨life, hrun, ?_, ?_, ?_, hat.fresh⟩
      · exact List.forall_mem_map.mpr fun r hr hid => absurd hid (hnone r hr)
      · exact List.forall_mem_map.mpr fun r hr hid => absurd hid (hnone r hr)
      · exact fun _ => hat.absent hnone
  · refine List.forall_mem_map.mpr fun r hr hun hgiven => ?_
    simp only [Output.published, Bool.or_eq_false_iff] at hun
    have hd := h.dirty r hr hun.1 hgiven
    rw [hun.2] at hd
    contradiction

/-- Windows that are still open get their event and their mark. -/
theorem stream_announceWindows (hl : Ledger sys.bridge)
    (hopen : ∀ r ∈ sys.bridge.windows, r.closed = false)
    (h : Stream doomed sys.runtime.delivered sys.bridge) :
    Stream doomed (announceWindows sys).runtime.delivered (announceWindows sys).bridge := by
  have hlog : (announceWindows sys).runtime.delivered = _ := delivered_deliverAll _ sys.runtime
  rw [hlog]
  refine h.extend (fun w life hat => ?_)
    (fun o life hat => ⟨life, run_ignored_outputs o life ?_, hat.mono rfl le_rfl⟩) h.dirty
  · have hspared : ∀ r ∈ sys.bridge.windows, r.id = w → ¬doomed w := fun r hr hid hd => by
      have hclosed := ((hat.doomed hd).2.2 r hr hid).1
      rw [hopen r hr] at hclosed
      contradiction
    have hwindows : (announceWindows sys).bridge.windows = sys.bridge.windows.map fun w =>
      { w with node := w.node || !w.configured, configured := true, announced := true } := rfl
    have hpublished : ∀ life' : Lifespan Unit, (∀ r ∈ sys.bridge.windows, r.id = w →
        life' = .alive ()) → (life' = .alive () → ∃ r ∈ sys.bridge.windows, r.id = w) →
        (sys.bridge.nextId < w → life' = .unborn) →
        (doomed w → life' = .unborn ∧ w ≤ sys.bridge.nextId) →
        WindowAt (doomed w) w (announceWindows sys).bridge life' := by
      intro life' halive hrecord hfresh hdoomed
      refine ⟨?_, ?_, hfresh, fun hd => ⟨(hdoomed hd).1, (hdoomed hd).2, ?_⟩⟩
      · rw [hwindows, List.forall_mem_map]
        exact halive
      · rw [hwindows, List.forall_mem_map]
        intro hnone heq
        obtain ⟨r, hr, hid⟩ := hrecord heq
        exact hnone r hr hid
      · rw [hwindows, List.forall_mem_map]
        exact fun r hr hid => absurd hd (hspared r hr hid)
    rw [List.map_eq_flatMap]
    rcases run_records (fun d => windowRole_of_ident) Window.id
      (sys.bridge.windows.filter fun w => !w.announced)
      (f := fun w => [Delivered.event 3 w.id 0 0 0 0])
      (fun r d hd => List.mem_singleton.mp hd ▸ rfl)
      (hl.windows.nodup.sublist (List.filter_sublist.map _)) life
      with ⟨r, hr, hid, hrun⟩ | ⟨hnone, hrun⟩
    · obtain ⟨hmem, hun⟩ := List.mem_filter.mp hr
      have hunborn : life = .unborn := by
        rw [hat.record r hmem hid, if_neg (by simpa using hun)]
      have hrole : windowRole w (.event 3 r.id 0 0 0 0) = .opens () := by simp [windowRole, hid]
      have hle := hl.windows.bounded _ (List.mem_map_of_mem (f := Window.id) hmem)
      rw [hid] at hle
      refine ⟨.alive (), ?_, hpublished _ (fun _ _ _ => rfl) (fun _ => ⟨r, hmem, hid⟩)
        (fun hlt => absurd hlt hle.not_gt) fun hd => absurd hd (hspared r hmem hid)⟩
      rw [hrun, runMonitor_singleton, live_of_opens hrole]
      exact ⟨hunborn, rfl⟩
    · refine ⟨life, hrun, hpublished life (fun r hr hid => ?_) (fun halive => ?_) hat.fresh
        fun hd => ⟨(hat.doomed hd).1, (hat.doomed hd).2.1⟩⟩
      · have hannounced : r.announced = true := by
          cases hun : r.announced with
          | true => rfl
          | false => exact absurd hid (hnone r (List.mem_filter.mpr ⟨hr, by simp [hun]⟩))
        rw [hat.record r hr hid, if_pos hannounced]
      · by_contra hgone
        exact hat.absent (fun r hr hid => hgone ⟨r, hr, hid⟩) halive
  · exact List.forall_mem_map.mpr fun r _ => by simp [Delivered.kind]

/-- The events of a window carry its id. -/
theorem ident_metadataEvents (r : Window) : ∀ d ∈ r.metadataEvents, d.ident = r.id := by
  intro d hd
  simp only [Window.metadataEvents, List.mem_append, or_assoc] at hd
  rcases hd with hd | hd | hd | hd <;> split at hd <;>
    simp only [List.mem_cons, List.not_mem_nil, or_false] at hd
  · exact hd ▸ rfl
  · exact hd ▸ rfl
  · rcases hd with rfl | rfl <;> rfl
  · exact hd ▸ rfl

/-- They use the window. -/
theorem windowRole_metadataEvents (r : Window) :
    ∀ d ∈ r.metadataEvents, windowRole r.id d = .uses := by
  intro d hd
  simp only [Window.metadataEvents, List.mem_append, or_assoc] at hd
  rcases hd with hd | hd | hd | hd <;> split at hd <;>
    simp only [List.mem_cons, List.not_mem_nil, or_false] at hd
  · simp [hd, windowRole, windowUses]
  · simp [hd, windowRole, windowUses]
  · rcases hd with rfl | rfl <;> simp [windowRole]
  · simp [hd, windowRole, windowUses]

/-- Events that announced windows take. -/
theorem run_recordUses {w : Nat} {s : State} {life : Lifespan Unit} {dead : Prop}
    (hat : WindowAt dead w s life) {recs : List Window} {f : Window → List Delivered}
    (hrecs : recs.Sublist s.windows) (hl : Ledger s) (hid : ∀ r, ∀ d ∈ f r, d.ident = r.id)
    (huses : ∀ r, ∀ d ∈ f r, windowRole r.id d = .uses)
    (hannounced : ∀ r ∈ recs, r.announced = true) :
    runMonitor (live (windowRole w)) life (recs.flatMap f) = some life := by
  rcases run_records (fun d => windowRole_of_ident) Window.id recs hid
    (hl.windows.nodup.sublist (hrecs.map _)) life with ⟨r, hr, heq, hrun⟩ | ⟨-, hrun⟩
  · rw [hrun, hat.record r (hrecs.subset hr) heq, if_pos (hannounced r hr)]
    exact run_uses fun d hd => Or.inl (heq ▸ huses r d hd)
  · exact hrun

/-- Publishing metadata keeps the stream. -/
theorem stream_publishMetadata (hl : Ledger sys.bridge)
    (hannounced : ∀ r ∈ sys.bridge.windows, r.announced = true)
    (h : Stream doomed sys.runtime.delivered sys.bridge) :
    Stream doomed (publishMetadata sys).runtime.delivered (publishMetadata sys).bridge := by
  have hlog : (publishMetadata sys).runtime.delivered = _ := delivered_deliverAll _ sys.runtime
  rw [hlog]
  have hwindows : (publishMetadata sys).bridge.windows
    = sys.bridge.windows.map Window.published := rfl
  refine h.extend (fun w life hat => ⟨life, run_recordUses hat (List.Sublist.refl _) hl
    ident_metadataEvents windowRole_metadataEvents hannounced, ?_⟩)
    (fun o life hat => ⟨life, run_ignored_outputs o life fun d hd => ?_, hat.mono rfl le_rfl⟩) h.dirty
  · refine ⟨?_, ?_, hat.fresh, fun hd => ⟨(hat.doomed hd).1, (hat.doomed hd).2.1, ?_⟩⟩
    · rw [hwindows, List.forall_mem_map]
      exact hat.record
    · rw [hwindows, List.forall_mem_map]
      exact hat.absent
    · rw [hwindows, List.forall_mem_map]
      exact (hat.doomed hd).2.2
  · obtain ⟨r, -, hd⟩ := List.mem_flatMap.mp hd
    have hk := kind_metadataEvents r d hd
    simp only [List.mem_cons, List.not_mem_nil, or_false] at hk ⊢
    omega

/-- Events about seats concern no window and no output. -/
theorem stream_ignored {ds : List Delivered}
    (hds : ∀ d ∈ ds, d.kind ∉ ([1, 2, 3, 4, 5, 11, 12, 13, 14, 21, 25, 26, 27] : List Int))
    {log : List Delivered} {s : State} (h : Stream doomed log s) : Stream doomed (log ++ ds) s := by
  refine h.extend (fun w life hat => ⟨life, run_ignored_windows w life fun d hd => ?_, hat⟩)
    (fun o life hat => ⟨life, run_ignored_outputs o life fun d hd => ?_, hat⟩) h.dirty
  · have hk := hds d hd
    simp only [List.mem_cons, List.not_mem_nil, or_false] at hk ⊢
    omega
  · have hk := hds d hd
    simp only [List.mem_cons, List.not_mem_nil, or_false] at hk ⊢
    omega

/-- Dropping seats keeps the stream. -/
theorem stream_dropSeats (h : Stream doomed sys.runtime.delivered sys.bridge) :
    Stream doomed (dropSeats sys).runtime.delivered (dropSeats sys).bridge := by
  have hlog : (dropSeats sys).runtime.delivered = _ := delivered_deliverAll _ sys.runtime
  rw [hlog]
  refine stream_ignored ?_ (h.mono rfl rfl le_rfl)
  exact List.forall_mem_map.mpr fun r _ => by simp [Delivered.kind]

end Publishing

end XmonadWayland.Bridge
