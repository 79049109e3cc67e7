import XmonadWayland.Bridge.Display
import XmonadWayland.Bridge.Log

/-!
# XmonadWayland.Bridge.Presented

What is known of a window, over whole runs.  Every step keeps what view and record know of each
other, so after any manage sequence without failure the compositor has every window as the
policy places it.
-/

namespace XmonadWayland.Bridge

/-! ## Steps -/

section Steps

variable {i : Nat} {sys : System} {v : View}

/-- Transactions give out no ids. -/
theorem kept_transacts {phase : Phase} {finish : Request} {s s' : State}
    (h : Transacts phase finish s s') :
    s'.issued = s.issued ∧ s'.nextId = s.nextId ∧ (Suited s → Suited s') := by
  cases h with
  | refused _ h => exact ⟨h.issued, h.nextId, h.suited⟩
  | ran t _ hdeeds hends =>
      obtain ⟨hissued, hnext, -⟩ := kept_deeds hdeeds
      exact ⟨hends.issued.trans hissued, hends.nextId.trans hnext,
        fun hs => hends.suited (hdeeds.keeps suited_deed hs)⟩

/-- A transaction adds its requests to those sent. -/
theorem sent_transacts {phase : Phase} {finish : Request} {s s' : State}
    (h : Transacts phase finish s s') : ∃ sent, s'.requests = s.requests ++ sent := by
  cases h with
  | refused _ h => exact ⟨[], h.requests.trans (List.append_nil _).symm⟩
  | ran t _ hdeeds hends =>
      obtain ⟨sent, heq, -⟩ := sent_deeds hdeeds
      obtain ⟨last, heq', -⟩ := hends.sent
      exact ⟨sent ++ last, by rw [heq', heq, List.append_assoc]⟩

/-- A callback outside a transaction keeps the state suited. -/
theorem suited_listen (cb : Callback) {s : State} (h : Suited s) : Suited (listen cb s) := by
  cases notice_listen cb s with
  | silent _ hsilent => exact hsilent.suited h
  | attached t _ hsilent hattached => exact (kept_attachments hattached).1 (hsilent.suited h)
  | created kind _ _ hcreated =>
      obtain ⟨t, hcreated, hattached⟩ := hcreated
      exact (kept_attachments hattached).1 (hcreated.suited h)
  | withdrawn kind id _ hwithdrawn => exact hwithdrawn.suited h

/-- Every callback keeps the state suited. -/
theorem suited_step (sys : System) (cb : Callback) (h : Suited sys.bridge) :
    Suited (sys.step cb).bridge :=
  step_induction (P := fun t => Suited t.bridge)
    ((kept_transacts (transacts_managerManageStart sys)).2.2 h)
    ((kept_transacts (transacts_managerRenderStart sys)).2.2 h) (fun cb => suited_listen cb h) cb

/-- What may be asked at any time changes nothing that is known of a window. -/
theorem ask_of_anytime {r : Request} (h : r.scope = .anytime) (i : Nat) (v : View) :
    v.ask i r = v := by
  refine ask_of_not_displays ?_
  cases r <;> first | rfl | simp [Request.scope, Request.manageOnly] at h

/-- The view after a callback between two sequences. -/
theorem view_listen {cb : Callback} (hstep : sys.step cb = sys.onBridge (listen cb)) :
    (traffic sys cb).foldl (View.hear i) v = v.tell cb := by
  obtain ⟨sent, hsent, hscopes, -⟩ := sent_listen cb sys.bridge
  have hborn : ∀ (ids : List Nat) (v : View),
      (ids.map (Wire.born cb)).foldl (View.hear i) v = v := by
    intro ids
    induction ids with
    | nil => exact fun _ => rfl
    | cons id ids ih => exact ih
  rw [traffic, List.foldl_cons, List.foldl_append, hborn, hstep, foldl_hear_asked]
  refine foldl_of_fixed fun r hr => ?_
  change r ∈ List.drop _ (listen cb sys.bridge).requests at hr
  rw [hsent, List.drop_left] at hr
  exact ask_of_anytime (hscopes r hr) i _

/-- A callback outside a manage transaction keeps the display. -/
theorem displayed_listen {cb : Callback} (hl : Ledger sys.bridge)
    (hcb : cb ≠ .managerManageStart) (hf : (listen cb sys.bridge).failed = false)
    (h : Displayed i sys.bridge v) : Displayed i (listen cb sys.bridge) (v.tell cb) := by
  cases hchanges : changesDisplay cb with
  | false =>
      have hsame : v.tell cb = v := by
        cases cb <;> first | rfl | contradiction
      rw [hsame]
      exact h.unplaced (unplaced_listen sys.bridge hchanges)
  | true =>
      cases cb with
      | managerWindow => exact displayed_managerWindow hl hf h
      | managerOutput => exact displayed_managerOutput hf h
      | outputRemoved output => exact displayed_outputRemoved hl output h
      | _ => contradiction

/-- Rendering changes neither what is known of the fullscreen state nor what is undefined. -/
structure Rendered (v v' : View) : Prop where
  tiled : v'.tiled = v.tiled
  output : v'.output = v.output
  informed : v'.informed = v.informed
  dimensions : v'.dimensions = v.dimensions
  undefined : v'.undefined = v.undefined

/-- A request of the render phase renders the view. -/
theorem rendered_ask {r : Request} (h : r.manageOnly = false) (v : View) :
    Rendered v (v.ask i r) := by
  cases r with
  | setPosition window x y => rw [View.ask]; split <;> exact ⟨rfl, rfl, rfl, rfl, rfl⟩
  | hideWindow window => rw [View.ask]; split <;> exact ⟨rfl, rfl, rfl, rfl, rfl⟩
  | showWindow window => rw [View.ask]; split <;> exact ⟨rfl, rfl, rfl, rfl, rfl⟩
  | setBorders window focused width => rw [View.ask]; split <;> exact ⟨rfl, rfl, rfl, rfl, rfl⟩
  | _ => first | contradiction | exact ⟨rfl, rfl, rfl, rfl, rfl⟩

/-- So does a list of them. -/
theorem rendered_foldl {requests : List Request} (h : ∀ r ∈ requests, r.manageOnly = false)
    (v : View) : Rendered v (requests.foldl (View.ask i) v) :=
  List.foldlRecOn (motive := fun v' => Rendered v v') requests (View.ask i)
    ⟨rfl, rfl, rfl, rfl, rfl⟩ fun v' hv r hr =>
      have hr' := rendered_ask (i := i) (h r hr) v'
      ⟨hr'.tiled.trans hv.tiled, hr'.output.trans hv.output, hr'.informed.trans hv.informed,
        hr'.dimensions.trans hv.dimensions, hr'.undefined.trans hv.undefined⟩

/-- Records move at most. -/
structure Moved (s s' : State) : Prop where
  windows : ∀ w' ∈ s'.windows, ∃ w ∈ s.windows,
    w'.stance = { w.stance with x := w'.x, y := w'.y }
  outputs : s'.outputs = s.outputs
  nextId : s'.nextId = s.nextId

namespace Moved

variable {s s' s'' : State}

theorem fields (hw : s'.windows = s.windows) (ho : s'.outputs = s.outputs)
    (hn : s'.nextId = s.nextId) : Moved s s' := ⟨fun w hw' => ⟨w, hw ▸ hw', rfl⟩, ho, hn⟩

theorem trans (h : Moved s s') (h' : Moved s' s'') : Moved s s'' := by
  refine ⟨fun w'' hw'' => ?_, h'.outputs.trans h.outputs, h'.nextId.trans h.nextId⟩
  obtain ⟨w', hw', hstance'⟩ := h'.windows w'' hw''
  obtain ⟨w, hw, hstance⟩ := h.windows w' hw'
  exact ⟨w, hw, by rw [hstance', hstance]⟩

end Moved

/-- Setting a render position moves a window. -/
theorem moved_xwSetRenderPosition (id : Nat) (x y : Int) (s : State) :
    Moved s (xwSetRenderPosition id x y s) := by
  unfold xwSetRenderPosition
  split
  · exact .fields rfl rfl rfl
  · split
    · exact .fields rfl rfl rfl
    · split
      · exact .fields rfl rfl rfl
      · refine ⟨fun w' hw' => ?_, rfl, rfl⟩
        obtain ⟨w, hw, rfl⟩ := List.mem_map.mp hw'
        refine ⟨w, hw, ?_⟩
        split <;> rfl

/-- So does what a render transaction ends with. -/
theorem moved_finish {g : State → State} (hg : ∀ s, Moved s (g s)) (s : State) :
    Moved s (sendStop { (if s.failed then s else g s) with phase := .idle }) := by
  have hstop : ∀ t : State, Moved t (sendStop t) := by
    intro t
    unfold sendStop
    split <;> exact .fields rfl rfl rfl
  refine Moved.trans ?_ (hstop _)
  split
  · exact .fields rfl rfl rfl
  · exact (hg s).trans (.fields rfl rfl rfl)

/-- The requests of a render transaction move nothing. -/
theorem moved_renderFinish (s : State) : Moved s
    { send ((renderable s).flatMap (showRequests s) ++ stackRequests s ++ [.renderFinish]) s
      with awaitingRender := false } := .fields rfl rfl rfl

/-- A render transaction only moves windows. -/
theorem moved_runRender (sys : System) : Moved sys.bridge (runRender sys).bridge := by
  have hmoved : ∀ (positions : List (WindowId × Int × Int)) (t : State), Moved t
      (positions.foldl (fun s q => xwSetRenderPosition q.1 (bounded q.2.1) (bounded q.2.2) s) t) :=
    fun positions t => List.foldlRecOn (motive := fun t' => Moved t t') positions _
      (.fields rfl rfl rfl) fun t' ht q _ => ht.trans (moved_xwSetRenderPosition _ _ _ t')
  have hstart : Moved sys.bridge { sys.bridge with phase := .render } := .fields rfl rfl rfl
  exact (hstart.trans (hmoved _ _)).trans (moved_finish moved_renderFinish _)

/-- So does the callback that starts one. -/
theorem moved_managerRenderStart (sys : System) :
    Moved sys.bridge (managerRenderStart sys).bridge := by
  rcases managerRenderStart_cases sys with ⟨-, heq⟩ | ⟨message, -, heq⟩ | ⟨-, heq⟩ <;> rw [heq]
  · exact .fields rfl rfl rfl
  · exact .fields rfl rfl rfl
  · exact moved_runRender sys

/-- Moved windows are displayed as before. -/
theorem Displayed.moved {s s' : State} {v v' : View} (h : Displayed i s v) (hs : Moved s s')
    (hv : Rendered v v') : Displayed i s' v' := by
  have hlive : liveOutputs s' = liveOutputs s := by rw [liveOutputs, hs.outputs]; rfl
  refine ⟨fun w' hw' hid => ?_, fun w' hw' hid => ?_, fun hlt => ?_⟩
  · obtain ⟨w, hw, hstance⟩ := hs.windows w' hw'
    rw [hlive]
    exact (h.seen w hw ((congrArg Stance.id hstance).symm.trans hid)).congr
      (congrArg Stance.fullscreenOutput hstance) (congrArg Stance.exitedFullscreen hstance)
      hv.output hv.informed hv.undefined
  · obtain ⟨w, hw, hstance⟩ := hs.windows w' hw'
    have hbound := h.bounded w hw ((congrArg Stance.id hstance).symm.trans hid)
    rw [← hs.nextId] at hbound
    exact (congrArg Stance.fullscreenOutput hstance).trans_le hbound
  · obtain ⟨hnone, hno, hdefined⟩ := h.fresh (hs.nextId ▸ hlt)
    exact ⟨hv.output.trans hnone, hv.informed.trans hno, hv.undefined.trans hdefined⟩

end Steps

/-! ## Runs -/

/-- What holds between two callbacks of policy, bridge and window `i` on the wire. -/
structure Presents (i : Nat) (sys : System) (v : View) : Prop where
  synced : Synced (fun _ => False) sys
  suited : Suited sys.bridge
  displayed : sys.bridge.failed = false → Displayed i sys.bridge v

section Runs

variable {i : Nat} {sys : System} {v : View}

/-- A manage sequence that succeeds, on the wire. -/
theorem Presents.managed (h : Presents i sys v)
    (hf : (managerManageStart sys).bridge.failed = false) :
    Managed i (managerManageStart sys).bridge (managerManageStart sys).runtime.runtimePolicy v
      ((traffic sys .managerManageStart).foldl (View.hear i) v) := by
  obtain ⟨hissued, -, -⟩ := kept_transacts (transacts_managerManageStart sys)
  rcases managerManageStart_cases sys with ⟨hfailed, heq⟩ | ⟨message, -, heq⟩ | ⟨hok, heq⟩
  · rw [heq, hfailed] at hf
    contradiction
  · rw [heq] at hf
    contradiction
  · rw [heq] at hf hissued ⊢
    have hdisplayed := h.displayed hok
    obtain ⟨-, sent, hsent, hmanaged⟩ := managed_runManage h.synced hok h.suited hf hdisplayed.seen
    have hstep : (sys.step .managerManageStart).bridge = (runManage sys).bridge :=
      congrArg System.bridge heq
    rw [← hstep] at hissued hsent
    rw [foldl_traffic hissued hsent]
    exact hmanaged

/-- Every callback keeps the view and the records in step. -/
theorem presents_step (sys : System) (v : View) (cb : Callback) (h : Presents i sys v) :
    Presents i (sys.step cb) ((traffic sys cb).foldl (View.hear i) v) := by
  refine ⟨synced_step sys cb h.synced, suited_step sys cb h.suited, fun hf => ?_⟩
  have hok : sys.bridge.failed = false := not_failed_of_step (failed_step · cb) hf
  have hdisplayed := h.displayed hok
  cases cb with
  | managerManageStart =>
      exact (h.managed hf).displayed (mirror_managerManageStart h.synced.mirror)
        (told_managerManageStart h.synced hf)
        ((level_managerManageStart h.synced.toAgreement).ledger hf) hdisplayed
        (kept_transacts (transacts_managerManageStart sys)).2.1.ge
  | managerRenderStart =>
      obtain ⟨sent, hsent, hrender⟩ := renderOnly_managerRenderStart sys
      have hissued : (sys.step .managerRenderStart).bridge.issued = sys.bridge.issued :=
        (kept_transacts (transacts_managerRenderStart sys)).1
      rw [foldl_traffic hissued hsent]
      exact hdisplayed.moved (moved_managerRenderStart sys) (rendered_foldl hrender v)
  | _ =>
      rw [view_listen rfl]
      exact displayed_listen (h.synced.ledger hok) (by simp) hf hdisplayed

/-- Nothing is presented yet. -/
theorem presents_initial {cfg : Config} (hcfg : validateConfig cfg = .ok ())
    (loads : List (Option Config)) (decode : List UInt8 → String) (i : Nat) :
    Presents i (initialSystem cfg loads decode) {} where
  synced := synced_initial hcfg loads decode
  suited _ hw := absurd hw List.not_mem_nil
  displayed _ := ⟨fun _ hw => absurd hw List.not_mem_nil, fun _ hw => absurd hw List.not_mem_nil,
    fun _ => ⟨rfl, rfl, rfl⟩⟩

/-- Every run keeps the view and the records in step. -/
theorem presents_runSystem {cfg : Config} (hcfg : validateConfig cfg = .ok ())
    (loads : List (Option Config)) (decode : List UInt8 → String) (cbs : List Callback) (i : Nat) :
    Presents i (runSystem cbs (initialSystem cfg loads decode))
      (view i (wire cbs (initialSystem cfg loads decode))) :=
  foldl_wire presents_step cbs (presents_initial hcfg loads decode i)

end Runs

/-! ## Placements -/

section Placements

variable {cfg : Config} {p : Policy} {pl : Placement} {s : State}

/-- Every placement is one the C ABI can express. -/
theorem normal_placementRect (h : Reachable cfg p) (hpl : pl ∈ renderPolicy p) :
    Normal pl.placementRect := by
  cases hvis : pl.placementVisible with
  | true =>
      obtain ⟨oid, output, area, -, -, -, hnormal, hin, hfull, htile⟩ :=
        placement_spec (managed_of_reachable h).wellFormed (outputsNormal_of_reachable h) hpl hvis
      cases hfs : pl.placementFullscreen with
      | true => rw [hfull hfs]; exact hnormal
      | false => exact hnormal.within ((htile hfs).trans hin)
  | false =>
      obtain ⟨wid, -, rfl⟩ := List.mem_map.mp hpl
      unfold placement at hvis ⊢
      split at hvis
      · contradiction
      · exact normal_positive ⟨0, 0, 1, 1⟩

/-- A fullscreen window is visible. -/
theorem visible_of_fullscreen (hpl : pl ∈ renderPolicy p) (h : pl.placementFullscreen = true) :
    pl.placementVisible = true := by
  obtain ⟨wid, -, rfl⟩ := List.mem_map.mp hpl
  unfold placement at h ⊢
  split at h
  · rfl
  · contradiction

/-- A call is about an output there is, or about none. -/
theorem goal_placing (h : Reachable cfg p) (hl : Ledger s) (hpl : pl ∈ renderPolicy p)
    (houtputs : ∀ o : OutputId, p.outputs[o]? = (liveOutput o s).map fun r => positive r.geometry) :
    pl.placementFullscreen = false ∧ pl.placing.goal (liveOutputs s) = 0
      ∨ pl.placementFullscreen = true ∧ ∃ o ∈ liveOutputs s, o ≠ 0 ∧ pl.placementOutput = some o
        ∧ pl.placing.goal (liveOutputs s) = o := by
  cases hfs : pl.placementFullscreen with
  | false => exact Or.inl ⟨rfl, by simp [Placing.goal, Placement.placing, hfs]⟩
  | true =>
      obtain ⟨o, output, area, hout, hlookup, -⟩ := placement_spec
        (managed_of_reachable h).wellFormed (outputsNormal_of_reachable h) hpl
        (visible_of_fullscreen hpl hfs)
      obtain ⟨r, hr, -⟩ := Option.map_eq_some_iff.mp ((houtputs o).symm.trans hlookup)
      have hfound := List.find?_some hr
      simp only [Bool.not_eq_true', decide_eq_true_eq] at hfound
      have hmem : r ∈ s.outputs := List.mem_of_find?_eq_some hr
      have hlive : o ∈ liveOutputs s := mem_liveOutputs.mpr ⟨r, hmem, hfound⟩
      have hpos : o ≠ 0 := hfound.1 ▸ Nat.one_le_iff_ne_zero.mp
        (hl.outputs.positive _ (List.mem_map_of_mem hmem))
      exact Or.inr ⟨rfl, o, hlive, hpos, hout,
        by simp [Placing.goal, Placement.placing, hfs, hout, hlive]⟩

/-- Where a call for a placement puts a record. -/
theorem Obeys.geometry {live : List Nat} {layer : Bool} {w : Window}
    (h : Obeys pl.placing live layer w) (hn : Normal pl.placementRect) :
    w.x = pl.placementRect.rectX ∧ w.y = pl.placementRect.rectY
      ∧ w.width = pl.placementRect.rectWidth ∧ w.height = pl.placementRect.rectHeight := by
  obtain ⟨hx, hy, hwidth, hheight⟩ := hn.bounded
  rw [h.x, h.y, h.width, h.height]
  simp only [Placement.placing, hx, hy, hwidth, hheight, contentPosition]
  obtain ⟨⟨⟨h1, h2, h3⟩, ⟨h4, h5, h6⟩⟩, h7, h8⟩ := hn
  simp only [screenRange, minInt32, maxInt32] at *
  omega

end Placements

/-- **Windows as placed**: in every run, whatever the compositor calls, after a manage sequence
without failure the compositor has every window the policy places as it is placed.  It knows
the tiled edges; the window is fullscreen exactly on the output its placement names, and
knows of it; a visible window that is not fullscreen has been proposed the extents of its
placement, and nothing of it is left undefined by a fullscreen state it left. -/
theorem windows_as_placed {cfg : Config} (hcfg : validateConfig cfg = .ok ())
    (loads : List (Option Config)) (decode : List UInt8 → String) (cbs : List Callback) :
    let start := initialSystem cfg loads decode
    let run := cbs ++ [.managerManageStart]
    let sys := runSystem run start
    sys.bridge.failed = false → ∀ pl ∈ renderPolicy sys.runtime.runtimePolicy,
      let v := view pl.placementWindow (wire run start)
      v.tiled = (if pl.placementFloating then 0 else 15)
        ∧ v.output = (if pl.placementFullscreen then pl.placementOutput else none)
        ∧ v.informed = pl.placementFullscreen
        ∧ (pl.placementVisible = true → pl.placementFullscreen = false → v.undefined = false
          ∧ v.dimensions = some (pl.placementRect.rectWidth, pl.placementRect.rectHeight)) := by
  intro start run sys hf pl hpl v
  have hpresents := presents_runSystem hcfg loads decode cbs pl.placementWindow
  have hsys : sys = managerManageStart (runSystem cbs start) := List.foldl_append
  have hview : v = (traffic (runSystem cbs start) .managerManageStart).foldl
      (View.hear pl.placementWindow) (view pl.placementWindow (wire cbs start)) := by
    rw [← view_append, ← wire_concat]
  rw [hsys] at hf hpl
  rw [hview]
  have hmanaged := hpresents.managed hf
  have hm := mirror_managerManageStart hpresents.synced.mirror
  have ht := told_managerManageStart hpresents.synced hf
  have hl := (level_managerManageStart hpresents.synced.toAgreement).ledger hf
  obtain ⟨w, hw⟩ := Option.isSome_iff_exists.mp
    ((mem_placements hm ht hl _).mp (List.mem_map_of_mem hpl))
  obtain ⟨hshows, -, hobeys⟩ := hmanaged.placed pl hpl rfl w hw
  obtain ⟨-, -, hwidth, hheight⟩ := hobeys.geometry (normal_placementRect hm.reachable hpl)
  have hgoal := goal_placing hm.reachable hl hpl (outputs_of_told hm ht)
  refine ⟨hshows.tiled, ?_, ?_, fun hvisible hwindowed => ?_⟩
  · rw [hshows.seen.output, hobeys.fullscreenOutput]
    rcases hgoal with ⟨hfs, hgoal⟩ | ⟨hfs, o, hlive, -, hout, hgoal⟩ <;> rw [hgoal, hfs]
    · exact if_neg (zero_not_live hl)
    · rw [if_pos hlive, if_pos rfl, hout]
  · rw [hshows.seen.informed, hobeys.fullscreenOutput]
    rcases hgoal with ⟨hfs, hgoal⟩ | ⟨hfs, o, -, hpos, -, hgoal⟩ <;> rw [hgoal, hfs]
    · rfl
    · exact decide_eq_true hpos
  · rw [← hwidth, ← hheight]
    rcases hgoal with ⟨-, hgoal⟩ | ⟨hfs, -⟩
    · exact hshows.geometry hvisible hgoal
    · exact absurd (hwindowed.symm.trans hfs) nofun

/-- Window 2 is asked to fill the output. -/
theorem windows_as_placed_closed :
    (view 2 (wire (closedCallbacks ++ [.managerManageStart])
      (initialSystem defaultConfig [] fun _ => ""))).dimensions = some (800, 600) := by
  have hf : (runSystem (closedCallbacks ++ [.managerManageStart])
    (initialSystem defaultConfig [] fun _ => "")).bridge.failed = false := by decide +kernel
  have hpl : (⟨2, ⟨0, 0, 800, 600⟩, true, true, some 1, false, false⟩ : Placement)
    ∈ renderPolicy (runSystem (closedCallbacks ++ [.managerManageStart])
      (initialSystem defaultConfig [] fun _ => "")).runtime.runtimePolicy := by decide +kernel
  exact ((windows_as_placed validateConfig_defaultConfig [] (fun _ => "") closedCallbacks hf _
    hpl).2.2.2 rfl rfl).2

end XmonadWayland.Bridge
