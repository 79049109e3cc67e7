import XmonadWayland.Nested.Conversation
import XmonadWayland.Nested.Escape

/-!
# XmonadWayland.Nested.Honest

The helper that talks to Sway does what the model on one state of Sway says: with a Sway that
reports its tree and its mode as they are and obeys the commands, each reconcile over the
connection leaves the helper and Sway as `NestedInput.reconcile` does, and so do events and the
end.
-/

namespace XmonadWayland.Nested

/-! ## A Sway that tells the truth -/

mutual

/-- A node as Sway reports it. -/
def Node.json : Node → Json
  | ⟨appId, pid, focused, nodes, floatingNodes⟩ => .obj [
      ("app_id", (appId.map Json.str).getD .null),
      ("pid", (pid.map fun n => Json.number (some n)).getD .null),
      ("focused", .bool focused),
      ("nodes", .arr (jsonOf nodes)),
      ("floating_nodes", .arr (jsonOf floatingNodes))]

def jsonOf : List Node → List Json
  | [] => []
  | node :: nodes => node.json :: jsonOf nodes

end

/-- An event as Sway reports it. -/
def SwayEvent.fields (e : SwayEvent) : List (String × Json) :=
  (e.change.map fun change => ("change", Json.str change)).toList
    ++ (e.container.map fun node => ("container", node.json)).toList

structure Scene where
  sway : Sway
  riverExists : Bool

/-- What Sway replies to a command. -/
def verdict (success : Bool) : Except Error (Nat × Json) :=
  .ok (0, .arr [.obj [("success", .bool success)]])

/-- Sway and River; `parse` is Sway's reading of the commands. -/
def honest (parse : String → Option Command) : Host Scene where
  send kind payload w :=
    if kind = 4 then (.ok (4, w.sway.tree.json), w)
    else if kind = 12 then (.ok (12, .obj [("name", .str w.sway.mode)]), w)
    else
      match (parse payload).bind w.sway.command with
      | none => (verdict false, w)
      | some sway => (verdict true, { w with sway := sway })
  processExists _ w := (w.riverExists, w)
  signalled w := (false, w)

/-- Sway reads the helper's commands as they are meant. -/
structure Understands (parse : String → Option Command) (name : String) : Prop where
  defines : parse (Client.defining name) = some (.define name)
  selects : parse (Client.selecting name) = some (.select name)
  restores : parse (Client.selecting "default") = some (.select "default")

/-! ## The tree -/

/-- The JSON of nodes, one by one. -/
theorem jsonOf_eq_map (nodes : List Node) : jsonOf nodes = nodes.map Node.json := by
  induction nodes with
  | nil => rfl
  | cons node nodes ih => rw [jsonOf, ih, List.map_cons]

/-- What the search reads of a node. -/
theorem json_eq (node : Node) : ∃ fields, node.json = .obj fields
    ∧ Json.items (fields.lookup "nodes") = some (node.nodes.map Node.json)
    ∧ Json.items (fields.lookup "floating_nodes") = some (node.floatingNodes.map Node.json)
    ∧ (∀ pid, Json.isRiver pid fields = node.isRiver pid)
    ∧ Json.isTrue (fields.lookup "focused") = node.focused := by
  obtain ⟨appId, pid, focused, nodes, floatingNodes⟩ := node
  refine ⟨_, rfl, ?_, ?_, ?_, rfl⟩
  · simp [List.lookup_cons, Json.items, jsonOf_eq_map]
  · simp [List.lookup_cons, Json.items, jsonOf_eq_map]
  · intro n
    cases appId <;> cases pid <;>
      simp [Json.isRiver, Node.isRiver, List.lookup_cons, Json.isString, Json.isInt]

/-- The JSON tells the focus. -/
theorem isFocused_json (node : Node) : node.json.isFocused = node.focused := by
  obtain ⟨fields, hjson, -, -, -, hfocused⟩ := json_eq node
  rw [hjson]
  exact hfocused

/-- The search in the JSON is the search in the tree. -/
theorem riverWindowsFrom_json (pid : Int) (pending found : List Node) :
    Json.riverWindowsFrom pid (pending.map Node.json) (found.map Node.json)
      = .ok ((riverWindowsFrom pid pending found).map Node.json) := by
  -- the two searches go in step: a node is read as it was written
  fun_induction riverWindowsFrom pid pending found with
  | case1 found => simp [Json.riverWindowsFrom]
  | case2 found node pending ih =>
      simp only [List.unattach_reverse, List.unattach_attach, dite_eq_ite] at ih
      obtain ⟨fields, hjson, hnodes, hfloating, hriver, -⟩ := json_eq node
      rw [List.map_cons, hjson, Json.riverWindowsFrom]
      split
      · next hnone =>
        rw [hnodes] at hnone
        contradiction
      · next nodes hsome =>
        obtain rfl := Option.some.inj (hnodes.symm.trans hsome)
        split
        · next hnone =>
          rw [hfloating] at hnone
          contradiction
        · next floatingNodes hsome' =>
          obtain rfl := Option.some.inj (hfloating.symm.trans hsome')
          rw [← ih, hriver]
          by_cases h : node.isRiver pid = true
          · simp [h, hjson]
          · simp [h]

/-- It finds the JSON of River's windows. -/
theorem riverWindows_json (tree : Node) (pid : Int) :
    tree.json.riverWindows pid = .ok ((riverWindows tree pid).map Node.json) := by
  have hfrom := riverWindowsFrom_json pid [tree] []
  obtain ⟨fields, hjson, -⟩ := json_eq tree
  rw [List.map_singleton, hjson] at hfrom
  rw [hjson]
  exact hfrom

/-- Whether one of them has the focus is told too. -/
theorem any_focused_json (nodes : List Node) :
    (nodes.map Node.json).any Json.isFocused = nodes.any Node.focused := by
  rw [List.any_map]
  exact congrArg nodes.any (funext isFocused_json)

/-! ## Requests -/

variable {parse : String → Option Command} {s : Session Scene}

/-- What is raised when Sway does not obey. -/
def rejected : Error := .ipc "Sway rejected the temporary input mode command"

/-- An honest Sway reports River's windows as they are. -/
theorem honest_windows {Q : List Json → Session Scene → Prop} {E : Error → Session Scene → Prop}
    (h : ∀ said, Q ((riverWindows s.host.sway.tree s.helper.pid).map Node.json)
      { s with said := said }) : (Client.windows (honest parse)).wp Q E s := by
  refine Program.wp_bind (Program.wp_of_ok rfl (Program.wp_bind (Program.wp_get ?_)))
  dsimp only
  rw [riverWindows_json]
  exact h _

/-- It reports its mode as it is. -/
theorem honest_mode {Q : String → Session Scene → Prop} {E : Error → Session Scene → Prop}
    (h : ∀ said, Q s.host.sway.mode { s with said := said }) :
    (Client.mode (honest parse)).wp Q E s :=
  Program.wp_of_ok rfl (h _)

/-- It obeys a command that it understands. -/
theorem honest_command {Q : Unit → Session Scene → Prop} {E : Error → Session Scene → Prop}
    {text : String} {c : Command} (hparse : parse text = some c)
    (hok : ∀ sway, s.host.sway.command c = some sway → ∀ said,
      Q () { s with host := { s.host with sway := sway }, said := said })
    (herror : s.host.sway.command c = none → ∀ said, E rejected { s with said := said }) :
    (Client.command (honest parse) text).wp Q E s := by
  have hobeys : (parse text).bind s.host.sway.command = s.host.sway.command c := by
    rw [hparse, Option.bind_some]
  cases hcommand : s.host.sway.command c with
  | none =>
      rw [hcommand] at hobeys
      have hsend : (honest parse).send 0 text s.host = (verdict false, s.host) := by
        simp [honest, hobeys]
      have hrun : Client.request (honest parse) 0 text s
          = (.ok (.arr [.obj [("success", .bool false)]]), { s with
            said := s.said ++ [⟨0, text, .ok (.arr [.obj [("success", .bool false)]])⟩] }) := by
        rw [Client.request, hsend]
        rfl
      exact Program.wp_bind (Program.wp_of_ok hrun (herror hcommand _))
  | some sway =>
      rw [hcommand] at hobeys
      have hsend : (honest parse).send 0 text s.host
          = (verdict true, { s.host with sway := sway }) := by
        simp [honest, hobeys]
      have hrun : Client.request (honest parse) 0 text s
          = (.ok (.arr [.obj [("success", .bool true)]]), { s with
            host := { s.host with sway := sway }
            said := s.said ++ [⟨0, text, .ok (.arr [.obj [("success", .bool true)]])⟩] }) := by
        rw [Client.request, hsend]
        rfl
      exact Program.wp_bind (Program.wp_of_ok hrun (hok sway hcommand _))

/-- Looking for a signal changes nothing. -/
theorem honest_stopping {Q : Bool → Session Scene → Prop} {E : Error → Session Scene → Prop}
    (h : Q s.helper.stopping s) : (Client.stopping (honest parse)).wp Q E s :=
  Program.wp_of_ok rfl h

/-- Looking for the process tells whether it is there. -/
theorem honest_processExists {Q : Bool → Session Scene → Prop} {E : Error → Session Scene → Prop}
    (h : Q s.host.riverExists s) : (Client.processExists (honest parse)).wp Q E s :=
  Program.wp_of_ok rfl h

/-! ## The methods -/

/-- A result, with the helper and Sway as the model leaves them. -/
structure Agrees (r : NestedInput.Reconciled) (riverExists : Bool) (result : Option Bool)
    (s : Session Scene) : Prop where
  result : r.result = result
  helper : s.helper = r.helper
  host : s.host = ⟨r.sway, riverExists⟩

/-- The program does what the model does. -/
abbrev Refines (m : Client Scene Bool) (r : NestedInput.Reconciled) (riverExists : Bool)
    (s : Session Scene) : Prop :=
  m.wp (fun result => Agrees r riverExists (some result))
    (fun e s' => e = rejected ∧ Agrees r riverExists none s') s

/-- The end restores as the model does. -/
abbrev RefinesRestore (parse : String → Option Command) (s : Session Scene) : Prop :=
  (Client.restore (honest parse)).wp
    (fun _ s' => s.helper.restore s.host.sway = some (s'.helper, s'.host.sway)
      ∧ s'.host.riverExists = s.host.riverExists)
    (fun e s' => e = rejected ∧ s.helper.restore s.host.sway = none ∧ s'.helper = s.helper
      ∧ s'.host = s.host) s

variable {h : NestedInput} {sway : Sway} {riverExists : Bool} {said : List Exchange}

/-- Restoring over the connection restores. -/
theorem refines_restore (hunderstands : Understands parse h.name) :
    RefinesRestore parse ⟨⟨sway, riverExists⟩, h, said⟩ := by
  refine Program.wp_bind (Program.wp_get (Program.wp_ite (fun hdefined => ?_) fun hdefined => ?_))
  · refine Program.wp_bind (honest_mode fun said => ?_)
    refine Program.wp_ite (fun hmine => ?_) fun hother => ?_
    · refine Program.wp_bind (honest_command hunderstands.restores ?_ ?_)
      · intro sway' hselect said
        refine Program.wp_modify ⟨?_, rfl⟩
        rw [NestedInput.restore_mine hdefined hmine, hselect]
        rfl
      · intro hselect said
        refine ⟨rfl, ?_, rfl, rfl⟩
        rw [NestedInput.restore_mine hdefined hmine, hselect]
        rfl
    · exact Program.wp_modify ⟨NestedInput.restore_other fun hmine => hother hmine.2, rfl⟩
  · exact Program.wp_modify ⟨NestedInput.restore_other fun hmine => hdefined hmine.1, rfl⟩

/-- Entering over the connection enters. -/
theorem refines_enter (hunderstands : Understands parse h.name) :
    Refines (Client.enter (honest parse)) (h.enter sway) riverExists
      ⟨⟨sway, riverExists⟩, h, said⟩ := by
  refine Program.wp_bind (Program.wp_modify (Program.wp_bind (Program.wp_get ?_)))
  refine Program.wp_bind (honest_command hunderstands.selects ?_ ?_)
  · intro sway' hselect said
    have henter : h.enter sway = ⟨some true, { h with owned := true }, sway'⟩ := by
      simp only [NestedInput.enter, hselect]
    rw [henter]
    exact ⟨rfl, rfl, rfl⟩
  · intro hselect said
    have henter : h.enter sway = ⟨none, { h with owned := true }, sway⟩ := by
      simp only [NestedInput.enter, hselect]
    rw [henter]
    exact ⟨rfl, rfl, rfl, rfl⟩

/-- Looking again over the connection looks again. -/
theorem refines_recheck (hunderstands : Understands parse h.name) :
    Refines (Client.recheck (honest parse)) (h.recheck riverExists sway) riverExists
      ⟨⟨sway, riverExists⟩, h, said⟩ := by
  have hstays : h.stopping = true ∨ ¬riverExists = true
      ∨ ¬(riverWindows sway.tree h.pid).any Node.focused = true ∨ sway.mode ≠ "default" →
      h.recheck riverExists sway = ⟨some true, h, sway⟩ := fun hstays => if_pos hstays
  refine Program.wp_bind (honest_windows fun said => Program.wp_bind (honest_stopping ?_))
  refine Program.wp_ite (fun hstops => ?_) fun hgoes => ?_
  · rw [hstays (Or.inl hstops)]
    exact ⟨rfl, rfl, rfl⟩
  refine Program.wp_bind (honest_processExists (Program.wp_ite (fun hgone => ?_) fun hthere => ?_))
  · rw [hstays (Or.inr (Or.inl (by simpa using hgone)))]
    exact ⟨rfl, rfl, rfl⟩
  rw [any_focused_json]
  refine Program.wp_ite (fun hunfocused => ?_) fun hfocused => ?_
  · rw [hstays (Or.inr (Or.inr (Or.inl (by simpa using hunfocused))))]
    exact ⟨rfl, rfl, rfl⟩
  refine Program.wp_bind (honest_mode fun said => Program.wp_ite (fun hother => ?_) fun hmode => ?_)
  · rw [hstays (Or.inr (Or.inr (Or.inr hother)))]
    exact ⟨rfl, rfl, rfl⟩
  have henters : h.recheck riverExists sway = h.enter sway := by
    refine if_neg ?_
    dsimp only at hgoes hthere hmode
    simp only [not_or, not_not]
    exact ⟨hgoes, by simpa using hthere, by simpa using hfocused, not_not.mp hmode⟩
  rw [henters]
  exact refines_enter hunderstands

/-- Capturing over the connection captures. -/
theorem refines_capture (hunderstands : Understands parse h.name) :
    Refines (Client.capture (honest parse)) (h.capture riverExists sway) riverExists
      ⟨⟨sway, riverExists⟩, h, said⟩ := by
  refine Program.wp_bind (Program.wp_get (Program.wp_ite (fun hdefined => ?_) fun hdefined => ?_))
  · have hcapture : h.capture riverExists sway = h.recheck riverExists sway :=
      if_neg (not_not.mpr hdefined)
    rw [hcapture]
    exact refines_recheck hunderstands
  · refine Program.wp_bind (honest_command hunderstands.defines ?_ ?_)
    · intro sway' hdefine said
      have hcapture : h.capture riverExists sway
          = NestedInput.recheck riverExists { h with defined := true } sway' := by
        obtain rfl := Option.some.inj hdefine
        exact if_pos hdefined
      rw [hcapture]
      exact Program.wp_bind (Program.wp_modify (refines_recheck hunderstands))
    · intro hdefine
      contradiction

/-- The branch without the focus, over the connection. -/
theorem refines_unfocused (hunderstands : Understands parse h.name) :
    Refines (Client.unfocused (honest parse) sway.mode)
      (if sway.mode = h.name then NestedInput.release { h with blocked := false } sway
        else ⟨some true, { h with blocked := false, owned := false }, sway⟩) riverExists
      ⟨⟨sway, riverExists⟩, h, said⟩ := by
  refine Program.wp_bind (Program.wp_modify (Program.wp_bind (Program.wp_get ?_)))
  refine Program.wp_ite (fun hmine => ?_) fun hother => ?_
  · have hmine' : sway.mode = h.name := hmine
    rw [if_pos hmine']
    have hnamed : Understands parse ({ h with blocked := false } : NestedInput).name := hunderstands
    refine Program.wp_bind (Program.wp_mono (refines_restore hnamed) ?_ ?_)
    · rintro - ⟨⟨sway', alive⟩, h', said'⟩ ⟨hrestored, rfl⟩
      rw [NestedInput.release, hrestored]
      exact Program.wp_bind (Program.wp_modify ⟨rfl, rfl, rfl⟩)
    · rintro e s' ⟨he, hrestored, hhelper, hhost⟩
      rw [NestedInput.release, hrestored]
      exact ⟨he, rfl, hhelper, hhost⟩
  · have hother' : ¬sway.mode = h.name := hother
    rw [if_neg hother']
    exact Program.wp_bind (Program.wp_modify ⟨rfl, rfl, rfl⟩)

/-- The branch with the focus, over the connection. -/
theorem refines_focused (hunderstands : Understands parse h.name) :
    Refines (Client.focused (honest parse) sway.mode)
      (if sway.mode ≠ "default" ∨ (Client.noticing sway.mode h).blocked
          ∨ (Client.noticing sway.mode h).stopping then
        ⟨some true, Client.noticing sway.mode h, sway⟩
      else NestedInput.capture riverExists (Client.noticing sway.mode h) sway) riverExists
      ⟨⟨sway, riverExists⟩, h, said⟩ := by
  have hnamed : Understands parse (Client.noticing sway.mode h).name := by
    rwa [(noticing_same sway.mode h).2.1]
  refine Program.wp_bind (Program.wp_modify (Program.wp_bind (Program.wp_get ?_)))
  refine Program.wp_ite (fun hother => ?_) fun hdefault => ?_
  · rw [if_pos (Or.inl hother)]
    exact ⟨rfl, rfl, rfl⟩
  refine Program.wp_ite (fun hblocked => ?_) fun hfree => ?_
  · rw [if_pos (Or.inr (Or.inl hblocked))]
    exact ⟨rfl, rfl, rfl⟩
  refine Program.wp_bind (honest_stopping (Program.wp_ite (fun hstops => ?_) fun hgoes => ?_))
  · rw [if_pos (Or.inr (Or.inr hstops))]
    exact ⟨rfl, rfl, rfl⟩
  · have hcaptures : ¬(sway.mode ≠ "default" ∨ (Client.noticing sway.mode h).blocked = true
        ∨ (Client.noticing sway.mode h).stopping = true) :=
      not_or.mpr ⟨hdefault, not_or.mpr ⟨hfree, hgoes⟩⟩
    rw [if_neg hcaptures]
    exact refines_capture hnamed

/-- A reconcile over the connection. -/
theorem refines_reconcile (hunderstands : Understands parse h.name) :
    Refines (Client.reconcile (honest parse)) (h.reconcile riverExists sway) riverExists
      ⟨⟨sway, riverExists⟩, h, said⟩ := by
  have hends : h.stopping = true ∨ ¬riverExists = true →
      h.reconcile riverExists sway = ⟨some false, h, sway⟩ := fun hends => if_pos hends
  refine Program.wp_bind (honest_stopping (Program.wp_ite (fun hstops => ?_) fun hgoes => ?_))
  · rw [hends (Or.inl hstops)]
    exact ⟨rfl, rfl, rfl⟩
  refine Program.wp_bind (honest_processExists (Program.wp_ite (fun hgone => ?_) fun hthere => ?_))
  · rw [hends (Or.inr (by simpa using hgone))]
    exact ⟨rfl, rfl, rfl⟩
  have hgoes' : ¬(h.stopping = true ∨ ¬riverExists = true) :=
    not_or.mpr ⟨hgoes, not_not.mpr (by simpa using hthere)⟩
  refine Program.wp_bind (honest_windows fun said => Program.wp_bind (Program.wp_get ?_))
  unfold NestedInput.reconcile
  rw [if_neg hgoes', List.isEmpty_map, any_focused_json]
  dsimp only
  refine Program.wp_ite (fun hclosed => ?_) fun hopen => ?_
  · rw [Bool.and_eq_true] at hclosed
    rw [if_pos hclosed]
    exact ⟨rfl, rfl, rfl⟩
  rw [Bool.and_eq_true] at hopen
  rw [if_neg hopen]
  refine Program.wp_bind (Program.wp_modify (Program.wp_bind (honest_mode fun said => ?_)))
  have hseen : (h.seen || !(riverWindows sway.tree h.pid).isEmpty)
      = decide (h.seen = true ∨ ¬(riverWindows sway.tree h.pid).isEmpty = true) := by
    simp only [Bool.decide_or, Bool.decide_eq_true, decide_not]
  dsimp only
  rw [hseen]
  refine Program.wp_ite (fun hunfocused => ?_) fun hfocused => ?_
  · rw [if_pos (by simpa using hunfocused)]
    exact refines_unfocused hunderstands
  · rw [if_neg (by simpa using hfocused)]
    exact refines_focused hunderstands

/-- The JSON of an event tells its change. -/
theorem lookup_change (e : SwayEvent) :
    Json.isString "focus" (e.fields.lookup "change") = decide (e.change = some "focus") := by
  obtain ⟨kind, change, container⟩ := e
  cases change <;> cases container <;> simp [SwayEvent.fields, List.lookup_cons, Json.isString]

/-- The container of an event, or an empty one. -/
theorem lookup_container (e : SwayEvent) : ∃ fields,
    (e.fields.lookup "container").getD (.obj []) = .obj fields
      ∧ (∀ pid, Json.isRiver pid fields = (e.container.getD .blank).isRiver pid)
      ∧ Json.isTrue (fields.lookup "focused") = (e.container.getD .blank).focused := by
  obtain ⟨kind, change, container⟩ := e
  cases container with
  | none =>
      refine ⟨[], ?_, fun pid => ?_, rfl⟩
      · cases change <;> rfl
      · simp [Json.isRiver, Json.isString, Node.isRiver, Node.blank]
  | some node =>
      obtain ⟨fields, hjson, -, -, hriver, hfocused⟩ := json_eq node
      refine ⟨fields, ?_, hriver, hfocused⟩
      cases change <;> exact hjson

/-- An event as it is reported. -/
theorem refines_event (e : SwayEvent) : (Client.event e.kind e.fields : Client Scene Unit) s
    = (.ok (), { s with helper := s.helper.event e }) := by
  obtain ⟨fields, hcontainer, hriver, hfocused⟩ := lookup_container e
  have hchange := lookup_change e
  unfold Client.event NestedInput.event
  by_cases hfocus : e.kind = 0x80000003 ∧ Json.isString "focus" (e.fields.lookup "change") = true
  · have hreport : e.kind = 0x80000003 ∧ e.change = some "focus" :=
      ⟨hfocus.1, of_decide_eq_true (hchange.symm.trans hfocus.2)⟩
    have hdeparts : NestedInput.departs s.helper.pid e
        = !(Json.isRiver s.helper.pid fields && Json.isTrue (fields.lookup "focused")) := by
      rw [hriver, hfocused]
      simp only [NestedInput.departs, hreport, Node.isRiver]
      by_cases happ : (e.container.getD .blank).appId = some "river" <;>
        by_cases hpid : (e.container.getD .blank).pid = some s.helper.pid <;>
          simp [happ, hpid]
    rw [if_pos hfocus, hcontainer, hdeparts]
    change (Except.ok (), { s with
      helper := if (Json.isRiver s.helper.pid fields
          && Json.isTrue (fields.lookup "focused")) = true
        then s.helper else { s.helper with blocked := false } }) = _
    cases Json.isRiver s.helper.pid fields && Json.isTrue (fields.lookup "focused") <;> rfl
  · have hstays : ¬NestedInput.departs s.helper.pid e = true := by
      simp only [NestedInput.departs, decide_eq_true_iff]
      exact fun hdeparts => hfocus ⟨hdeparts.1, hchange.trans (decide_eq_true hdeparts.2.1)⟩
    rw [if_neg hfocus, if_neg hstays]
    rfl

/-! ## Runs -/

namespace World

/-- The helper connected to a Sway that is honest. -/
def session (w : World) : Session Scene := ⟨⟨w.sway, w.riverExists⟩, w.helper, []⟩

/-- What a program of the helper leaves. -/
def leaving (w : World) (s : Session Scene) : World :=
  { w with helper := s.helper, sway := s.host.sway }

/-- The end of the loop over the connection. -/
def finishOver (parse : String → Option Command) (w : World) : World :=
  { w.leaving (Client.restore (honest parse) w.session).2 with phase := .ended }

end World

/-- The moves, with those of the helper made over the connection. -/
def actOver (parse : String → Option Command) (w : World) : Move → Option World
  | .reconcile =>
    if w.phase = .reconciles then
      let r := Client.reconcile (honest parse) w.session
      let next := w.leaving r.2
      if r.1 = .ok true then some { next with phase := .waits } else some (next.finishOver parse)
    else none
  | .receive =>
    if w.phase = .waits then
      w.sway.events[w.received]?.map fun e =>
        let next := { w with received := w.received + 1 }
        if e.kind = 0x80000006 then next.finishOver parse
        else
          let r := (Client.event e.kind e.fields : Client Scene Unit) next.session
          if r.1 = .ok () then { next.leaving r.2 with phase := .reconciles }
          else (next.leaving r.2).finishOver parse
    else none
  | m => act w m

/-- Ending over the connection ends. -/
theorem finishOver_eq {w : World} (hunderstands : Understands parse w.helper.name) :
    w.finishOver parse = w.finish := by
  have hrestore : RefinesRestore parse w.session := refines_restore hunderstands
  unfold World.finishOver World.finish
  cases hrun : Client.restore (honest parse) w.session with
  | mk result s =>
      cases result with
      | ok =>
          obtain ⟨hrestored, -⟩ := Program.of_ok hrestore hrun
          have hrestored' : w.helper.restore w.sway = some (s.helper, s.host.sway) := hrestored
          rw [hrestored']
          rfl
      | error e =>
          obtain ⟨-, hrestored, hhelper, hhost⟩ := Program.of_error hrestore hrun
          have hrestored' : w.helper.restore w.sway = none := hrestored
          rw [hrestored']
          simp only [World.leaving, hhelper, hhost]
          rfl

/-- A move over the connection is that move. -/
theorem actOver_eq {w : World} (hunderstands : Understands parse w.helper.name) (m : Move) :
    actOver parse w m = act w m := by
  cases m with
  | focus tree event => rfl
  | mode name => rfl
  | riverExits => rfl
  | signal => rfl
  | timeout => rfl
  | reconcile =>
      have hrefines : Refines (Client.reconcile (honest parse))
          (w.helper.reconcile w.riverExists w.sway) w.riverExists w.session :=
        refines_reconcile hunderstands
      have hname := (NestedInput.reconciles w.riverExists w.helper w.sway).name
      simp only [actOver, act]
      generalize w.helper.reconcile w.riverExists w.sway = r at hrefines hname ⊢
      rcases hrun : Client.reconcile (honest parse) w.session with ⟨result, s⟩
      have hends : Understands parse (w.leaving s).helper.name → s.helper = r.helper →
          s.host.sway = r.sway → (w.leaving s).finishOver parse
            = World.finish { w with helper := r.helper, sway := r.sway } := by
        intro hnamed hhelper hsway
        rw [finishOver_eq hnamed, World.leaving, hhelper, hsway]
      by_cases hphase : w.phase = .reconciles
      · rw [if_pos hphase, if_pos hphase]
        cases result with
        | error e =>
            obtain ⟨-, hresult, hhelper, hhost⟩ := Program.of_error hrefines hrun
            have hnamed : Understands parse (w.leaving s).helper.name := by
              rwa [World.leaving, hhelper, hname]
            rw [if_neg (by simp), if_neg (by simp [hresult]), hends hnamed hhelper (by rw [hhost])]
        | ok goesOn =>
            obtain ⟨hresult, hhelper, hhost⟩ := Program.of_ok hrefines hrun
            have hnamed : Understands parse (w.leaving s).helper.name := by
              rwa [World.leaving, hhelper, hname]
            cases goesOn with
            | false =>
                rw [if_neg (by simp), if_neg (by simp [hresult]),
                  hends hnamed hhelper (by rw [hhost])]
            | true => rw [if_pos rfl, if_pos hresult, World.leaving, hhelper, hhost]
      · rw [if_neg hphase, if_neg hphase]
  | receive =>
      simp only [actOver, act]
      refine congrArg (fun next => if w.phase = .waits then next else none) ?_
      refine congrArg (fun next => Option.map next _) (funext fun e => ?_)
      rw [refines_event, if_pos rfl]
      exact congrArg (fun next => if e.kind = 0x80000006 then next else _)
        (finishOver_eq hunderstands)

/-- No move changes the name of the mode. -/
theorem Acts.name {w w' : World} {m : Move} (h : Acts w m w') :
    w'.helper.name = w.helper.name := by
  cases h with
  | focus tree event w' hw' => rw [hw']
  | mode => rfl
  | riverExits => rfl
  | signal => rfl
  | goesOn r _ hr => exact hr.name
  | stops r w' _ hr hfinished => exact hfinished.name.trans hr.name
  | timeout => rfl
  | receives e => exact (event_kept w.helper e).1
  | shutsDown w' _ hfinished => exact hfinished.name

/-- Every run of the helper over its connection to an honest Sway is the run of the model. -/
theorem runs_over_connection {w : World} (hunderstands : Understands parse w.helper.name)
    (moves : List Move) : runMonitor (actOver parse) w moves = runMoves w moves := by
  induction moves generalizing w with
  | nil => rfl
  | cons m moves ih =>
      rw [runMonitor_cons, runMoves, runMonitor_cons, actOver_eq hunderstands]
      cases hact : act w m with
      | none => rfl
      | some w' =>
          refine ih ?_
          rwa [(acts_of_act hact).name]

/-- Sway's reading of the commands of a helper. -/
def swayReads (name text : String) : Option Command :=
  if text = Client.defining name then some (.define name)
  else if text = Client.selecting name then some (.select name)
  else if text = Client.selecting "default" then some (.select "default")
  else none

/-- The helper captures over the connection, and notices that the user escapes. -/
theorem runs_over_connection_escaped :
    let name := launched.helper.name
    Understands (swayReads name) name
      ∧ (runMonitor (actOver (swayReads name)) launched
          [.reconcile, .mode "default", .receive, .reconcile]).map
        (fun w => (w.sway.mode, w.helper.owned, w.helper.blocked, w.phase))
        = some ("default", false, true, .waits) := by
  intro name
  have hunderstands : Understands (swayReads name) name := {
    defines := if_pos rfl
    selects := (if_neg (by decide +kernel)).trans (if_pos rfl)
    restores := (if_neg (by decide +kernel)).trans
      ((if_neg (by decide +kernel)).trans (if_pos rfl)) }
  refine ⟨hunderstands, ?_⟩
  rw [runs_over_connection hunderstands]
  decide +kernel

end XmonadWayland.Nested
