import XmonadWayland.Base.Monitor
import XmonadWayland.Nested.Client

/-!
# XmonadWayland.Nested.Conversation

What the helper may say to Sway, by what has been said before.  The host is arbitrary: Sway may
report anything or fail, focus and mode may change between any two requests, and signals arrive
at any time.
-/

namespace XmonadWayland.Nested

/-! ## What may be said -/

/-- What the helper knows from the conversation: whether its mode is defined, whether the last
tree showed River focused, and the mode reported after it; both since the last command. -/
structure Rapport where
  defined : Bool := false
  focused : Bool := false
  mode : Option String := none

/-- The reply is a tree in which River has the focus. -/
def showsFocus (pid : Int) : Except Error Json → Bool
  | .error _ => false
  | .ok tree => match tree.riverWindows pid with
    | .error _ => false
    | .ok found => found.any Json.isFocused

def reportsMode : Except Error Json → Option String
  | .error _ => none
  | .ok reply => reply.modeName

def accepted : Except Error Json → Bool
  | .error _ => false
  | .ok reply => reply.accepts

def Rapport.hear (pid : Int) (name : String) (t : Rapport) (e : Exchange) : Rapport :=
  if e.kind = 4 then { t with focused := showsFocus pid e.reply, mode := none }
  else if e.kind = 12 then { t with mode := reportsMode e.reply }
  else { defined := t.defined || e.payload = Client.defining name && accepted e.reply }

/-- What the helper knows after a conversation. -/
def rapport (pid : Int) (name : String) (said : List Exchange) : Rapport :=
  said.foldl (Rapport.hear pid name) {}

/-- Queries, and three commands: the helper's mode is defined once, and it is defined or selected
only when the last tree showed River focused and the default mode was reported after it; the
default mode is selected only when the helper's mode was the last one reported. -/
inductive Permitted (name : String) (t : Rapport) (e : Exchange) : Prop
  | tree : e.kind = 4 → e.payload = "" → Permitted name t e
  | mode : e.kind = 12 → e.payload = "" → Permitted name t e
  | defines : e.kind = 0 → e.payload = Client.defining name → t.defined = false →
      t.focused = true → t.mode = some "default" → Permitted name t e
  | enters : e.kind = 0 → e.payload = Client.selecting name → t.defined = true →
      t.focused = true → t.mode = some "default" → Permitted name t e
  | restores : e.kind = 0 → e.payload = Client.selecting "default" → t.defined = true →
      t.mode = some name → Permitted name t e

/-- Each request is permitted by the conversation before it. -/
def Proper (pid : Int) (name : String) (said : List Exchange) : Prop :=
  Justified (fun before e => Permitted name (rapport pid name before) e) said

/-! ## The helper keeps in touch -/

variable {σ : Type} {host : Host σ} {pid : Int} {name : String}

/-- The conversation so far is proper, and the helper knows whether its mode is defined. -/
structure InTouch (pid : Int) (name : String) (t : Rapport) (s : Session σ) : Prop where
  proper : Proper pid name s.said
  knows : rapport pid name s.said = t
  defined : s.helper.defined = t.defined
  pid : s.helper.pid = pid
  name : s.helper.name = name

/-- The conversation is proper. -/
abbrev Touch (pid : Int) (name : String) (s : Session σ) : Prop := ∃ t, InTouch pid name t s

/-- After a program that keeps in touch, what is known is `t`. -/
abbrev Keeps (pid : Int) (name : String) {α : Type} (m : Client σ α) (t : α → Rapport)
    (s : Session σ) : Prop :=
  m.wp (fun a => InTouch pid name (t a)) (fun _ => Touch pid name) s

/-- A program that keeps in touch, whatever it makes known. -/
abbrev Stays (pid : Int) (name : String) {α : Type} (m : Client σ α) (s : Session σ) : Prop :=
  m.wp (fun _ => Touch pid name) (fun _ => Touch pid name) s

/-- One more exchange is heard after those before it. -/
theorem rapport_concat (pid : Int) (name : String) (said : List Exchange) (e : Exchange) :
    rapport pid name (said ++ [e]) = (rapport pid name said).hear pid name e := by
  rw [rapport, List.foldl_append]
  rfl

variable {t : Rapport} {s : Session σ}

/-- What is known after the first part is known as the second starts. -/
theorem keeps_bind {α β : Type} {m : Client σ α} {f : α → Client σ β} {t : α → Rapport}
    {Q : β → Session σ → Prop} (h : Keeps pid name m t s)
    (hf : ∀ a s', InTouch pid name (t a) s' → (f a).wp Q (fun _ => Touch pid name) s') :
    (m >>= f).wp Q (fun _ => Touch pid name) s :=
  Program.wp_bind (Program.wp_mono h hf fun _ _ h' => h')

/-- Parts that stay in touch do so together. -/
theorem stays_bind {α β : Type} {m : Client σ α} {f : α → Client σ β} (h : Stays pid name m s)
    (hf : ∀ a s', Touch pid name s' → Stays pid name (f a) s') : Stays pid name (m >>= f) s :=
  Program.wp_bind (Program.wp_mono h hf fun _ _ h' => h')

/-- Nothing has been said. -/
theorem InTouch.carried (h : InTouch pid name t s) {s' : Session σ} (hsaid : s'.said = s.said)
    (hpid : s'.helper.pid = s.helper.pid) (hname : s'.helper.name = s.helper.name)
    (hdefined : s'.helper.defined = s.helper.defined) : InTouch pid name t s' where
  proper := hsaid ▸ h.proper
  knows := hsaid ▸ h.knows
  defined := hdefined.trans h.defined
  pid := hpid.trans h.pid
  name := hname.trans h.name

/-- A request adds one exchange and leaves the helper alone. -/
theorem request_spec (host : Host σ) (kind : Nat) (payload : String) (s : Session σ) :
    (Client.request host kind payload).wp
      (fun reply s' => s'.helper = s.helper ∧ s'.said = s.said ++ [⟨kind, payload, .ok reply⟩])
      (fun e s' => s'.helper = s.helper ∧ s'.said = s.said ++ [⟨kind, payload, .error e⟩]) s := by
  cases hreply : Client.answered kind (host.send kind payload s.host).1 with
  | error e =>
      have hrun : Client.request host kind payload s = (.error e, { s with
          host := (host.send kind payload s.host).2
          said := s.said ++ [⟨kind, payload, .error e⟩] }) := by
        rw [Client.request, hreply]
      exact Program.wp_of_error hrun ⟨rfl, rfl⟩
  | ok reply =>
      have hrun : Client.request host kind payload s = (.ok reply, { s with
          host := (host.send kind payload s.host).2
          said := s.said ++ [⟨kind, payload, .ok reply⟩] }) := by
        rw [Client.request, hreply]
      exact Program.wp_of_ok hrun ⟨rfl, rfl⟩

/-- A request that is permitted has been made. -/
theorem InTouch.said (h : InTouch pid name t s) {s' : Session σ} {e : Exchange}
    (hpermitted : Permitted name t e) (hhelper : s'.helper = s.helper)
    (hsaid : s'.said = s.said ++ [e]) (hdefined : (t.hear pid name e).defined = t.defined) :
    InTouch pid name (t.hear pid name e) s' where
  proper := by
    rw [hsaid]
    exact h.proper.concat (by rwa [h.knows])
  knows := by rw [hsaid, rapport_concat, h.knows]
  defined := by rw [hhelper, h.defined, hdefined]
  pid := by rw [hhelper, h.pid]
  name := by rw [hhelper, h.name]

/-- A permitted request keeps in touch. -/
theorem InTouch.request (h : InTouch pid name t s) (kind : Nat) (payload : String)
    (hpermitted : ∀ reply, Permitted name t ⟨kind, payload, reply⟩)
    (hdefined : ∀ reply, (t.hear pid name ⟨kind, payload, reply⟩).defined = t.defined) :
    Keeps pid name (Client.request host kind payload)
      (fun reply => t.hear pid name ⟨kind, payload, .ok reply⟩) s :=
  Program.wp_mono (request_spec host kind payload s)
    (fun reply _ hsaid => h.said (hpermitted (.ok reply)) hsaid.1 hsaid.2 (hdefined (.ok reply)))
    fun e _ hsaid => ⟨_, h.said (hpermitted (.error e)) hsaid.1 hsaid.2 (hdefined (.error e))⟩

/-- The mode is known once it is reported. -/
theorem InTouch.mode (h : InTouch pid name t s) :
    Keeps pid name (Client.mode host) (fun current => { t with mode := some current }) s := by
  refine keeps_bind (h.request 12 "" (fun _ => .mode rfl rfl) fun _ => rfl) ?_
  intro reply s' h'
  cases hname : reply.modeName with
  | none => exact ⟨_, h'⟩
  | some current =>
      have hmode : t.hear pid name ⟨12, "", .ok reply⟩ = { t with mode := some current } :=
        congrArg (fun mode => { t with mode := mode }) hname
      rw [hmode] at h'
      exact h'

/-- The focus is known once the tree is reported; the mode is not any more. -/
theorem InTouch.windows (h : InTouch pid name t s) : Keeps pid name (Client.windows host)
    (fun found => ⟨t.defined, found.any Json.isFocused, none⟩) s := by
  refine keeps_bind (h.request 4 "" (fun _ => .tree rfl rfl) fun _ => rfl) ?_
  intro tree s' h'
  refine Program.wp_bind (Program.wp_get ?_)
  rw [h'.pid]
  cases hfound : tree.riverWindows pid with
  | error e => exact ⟨_, h'⟩
  | ok found =>
      have hfocus : showsFocus pid (.ok tree) = found.any Json.isFocused := by
        rw [showsFocus, hfound]
      have hshown : t.hear pid name ⟨4, "", .ok tree⟩
          = ⟨t.defined, found.any Json.isFocused, none⟩ :=
        congrArg (fun focused => (⟨t.defined, focused, none⟩ : Rapport)) hfocus
      rw [hshown] at h'
      exact h'

/-- A command, when the helper's mode is defined already. -/
theorem InTouch.command (h : InTouch pid name t s) (text : String) (hdefined : t.defined = true)
    (hpermitted : ∀ reply, Permitted name t ⟨0, text, reply⟩) :
    Stays pid name (Client.command host text) s := by
  refine keeps_bind (h.request 0 text hpermitted fun reply => ?_) ?_
  · rw [Rapport.hear, if_neg (by simp), if_neg (by simp), hdefined, Bool.true_or]
  · intro reply s' h'
    exact Program.wp_ite (fun _ => ⟨_, h'⟩) fun _ => ⟨_, h'⟩

/-- The command that defines the mode, and the note of it. -/
theorem InTouch.define (h : InTouch pid name t s) (hpermitted : ∀ reply,
      Permitted name t ⟨0, Client.defining name, reply⟩) (hdefined : t.defined = false)
    {α : Type} {rest : Client σ α} (hrest : ∀ s', InTouch pid name ⟨true, false, none⟩ s' →
      Stays pid name rest s') :
    Stays pid name (do
      Client.command host (Client.defining name)
      Client.update fun h => { h with defined := true }
      rest) s := by
  -- between the reply and the note the log says more than the helper knows: `said` does not apply
  have hheard : ∀ reply, t.hear pid name ⟨0, Client.defining name, reply⟩
      = ⟨accepted reply, false, none⟩ := by
    intro reply
    rw [Rapport.hear, if_neg (by simp), if_neg (by simp), hdefined, Bool.false_or]
    simp
  have htouch : ∀ {reply : Except Error Json} {s' : Session σ}, accepted reply = false →
      s'.helper = s.helper → s'.said = s.said ++ [⟨0, Client.defining name, reply⟩] →
      Touch pid name s' := by
    intro reply s' hrejected hhelper hsaid
    refine ⟨_, h.said (hpermitted reply) hhelper hsaid ?_⟩
    rw [hheard, hdefined]
    exact hrejected
  refine Program.wp_bind (Program.wp_bind (Program.wp_mono
    (request_spec host 0 (Client.defining name) s) ?_ fun e s' hsaid =>
      htouch rfl hsaid.1 hsaid.2))
  intro reply s' ⟨hhelper, hsaid⟩
  refine Program.wp_ite (fun haccepts => ?_) fun hrejects => ?_
  · refine Program.wp_pure _ (Program.wp_bind (Program.wp_modify (hrest _ ?_)))
    exact {
      proper := by
        rw [hsaid]
        exact h.proper.concat (by rw [h.knows]; exact hpermitted (.ok reply))
      knows := by
        rw [hsaid, rapport_concat, h.knows, hheard]
        exact congrArg (fun defined => (⟨defined, false, none⟩ : Rapport)) haccepts
      defined := rfl
      pid := by rw [hhelper, h.pid]
      name := by rw [hhelper, h.name] }
  · have hrejected : accepted (.ok reply) = false := Bool.eq_false_iff.mpr hrejects
    exact htouch hrejected hhelper hsaid

/-- Looking for a signal says nothing. -/
theorem InTouch.stopping (h : InTouch pid name t s) :
    Keeps pid name (Client.stopping host) (fun _ => t) s := by
  refine Program.wp_of_ok rfl ?_
  refine h.carried rfl ?_ ?_ ?_
  all_goals
    dsimp only
    split <;> rfl

/-- Looking for the process says nothing. -/
theorem InTouch.processExists (h : InTouch pid name t s) :
    Keeps pid name (Client.processExists host) (fun _ => t) s :=
  Program.wp_of_ok rfl (h.carried rfl rfl rfl rfl)

/-! ## A reconcile -/

/-- The own mode is selected only where that is permitted. -/
theorem InTouch.enter (h : InTouch pid name t s) (hdefined : t.defined = true)
    (hfocus : t.focused = true) (hmode : t.mode = some "default") :
    Stays pid name (Client.enter host) s := by
  refine Program.wp_bind (Program.wp_modify (Program.wp_bind (Program.wp_get ?_)))
  have h' : InTouch pid name t { s with helper := { s.helper with owned := true } } :=
    h.carried rfl rfl rfl rfl
  obtain rfl := h.name
  refine stays_bind ?_ fun _ s' h' => h'
  exact h'.command _ hdefined fun reply => .enters rfl rfl hdefined hfocus hmode

/-- Looking again permits to enter. -/
theorem InTouch.recheck (h : InTouch pid name t s) (hdefined : t.defined = true) :
    Stays pid name (Client.recheck host) s := by
  refine keeps_bind h.windows fun found s₁ h₁ => ?_
  refine keeps_bind h₁.stopping fun stops s₂ h₂ => Program.wp_ite (fun _ => ⟨_, h₂⟩) fun _ => ?_
  refine keeps_bind h₂.processExists fun alive s₃ h₃ =>
    Program.wp_ite (fun _ => ⟨_, h₃⟩) fun _ => ?_
  refine Program.wp_ite (fun _ => ⟨_, h₃⟩) fun hfocus => ?_
  refine keeps_bind h₃.mode fun current s₄ h₄ =>
    Program.wp_ite (fun _ => ⟨_, h₄⟩) fun hmode => ?_
  exact h₄.enter hdefined (by simpa using hfocus) (congrArg some (not_not.mp hmode))

/-- The own mode is defined only where that is permitted. -/
theorem InTouch.capture (h : InTouch pid name t s) (hfocus : t.focused = true)
    (hmode : t.mode = some "default") : Stays pid name (Client.capture host) s := by
  refine Program.wp_bind (Program.wp_get (Program.wp_ite (fun hdefined => ?_) fun hdefined => ?_))
  · exact h.recheck (h.defined.symm.trans hdefined)
  · have hundefined : t.defined = false := h.defined.symm.trans (Bool.eq_false_iff.mpr hdefined)
    rw [h.name]
    exact h.define (fun reply => .defines rfl rfl hundefined hfocus hmode) hundefined
      fun s' h' => h'.recheck rfl

/-- The helper's mode is no longer owned. -/
theorem stays_drop {s : Session σ} (h : Touch pid name s) :
    Stays pid name (Client.update fun h => { h with owned := false }) s := by
  obtain ⟨t, h⟩ := h
  exact Program.wp_modify ⟨t, h.carried rfl rfl rfl rfl⟩

/-- Restoring selects the default mode only while the own mode is reported. -/
theorem InTouch.restore (h : InTouch pid name t s) : Stays pid name (Client.restore host) s := by
  refine Program.wp_bind (Program.wp_get ?_)
  refine Program.wp_ite (fun hdefined => ?_) fun _ => stays_drop ⟨_, h⟩
  obtain rfl := h.name
  refine keeps_bind h.mode fun current s' h' => ?_
  refine Program.wp_ite (fun hmine => ?_) fun _ => stays_drop ⟨_, h'⟩
  have hmode : some current = some s.helper.name := congrArg some hmine
  have hdefined' : t.defined = true := h.defined.symm.trans hdefined
  refine stays_bind (h'.command _ hdefined' fun reply => ?_) fun _ _ => stays_drop
  exact .restores rfl rfl hdefined' hmode

/-- Without the focus there is at most a return to the default mode. -/
theorem InTouch.unfocused (h : InTouch pid name t s) (current : String) :
    Stays pid name (Client.unfocused host current) s := by
  have hdrop : ∀ {s' : Session σ}, Touch pid name s' → Stays pid name (do
      Client.update fun h => { h with owned := false }
      pure true) s' :=
    fun h' => stays_bind (stays_drop h') fun _ _ h'' => h''
  have h' : InTouch pid name t { s with helper := { s.helper with blocked := false } } :=
    h.carried rfl rfl rfl rfl
  refine Program.wp_bind (Program.wp_modify (Program.wp_bind (Program.wp_get ?_)))
  refine Program.wp_ite (fun _ => ?_) fun _ => hdrop ⟨_, h'⟩
  exact stays_bind h'.restore fun _ _ => hdrop

/-- Noticing another mode keeps the names. -/
theorem noticing_same (current : String) (h : NestedInput) :
    (Client.noticing current h).pid = h.pid ∧ (Client.noticing current h).name = h.name
      ∧ (Client.noticing current h).defined = h.defined := by
  unfold Client.noticing
  dsimp only
  split <;> split <;> exact ⟨rfl, rfl, rfl⟩

/-- With the focus there is at most a capture. -/
theorem InTouch.focused (h : InTouch pid name t s) (hfocus : t.focused = true) {current : String}
    (hmode : t.mode = some current) : Stays pid name (Client.focused host current) s := by
  obtain ⟨hpid, hname, hdefined⟩ := noticing_same current s.helper
  have h' : InTouch pid name t { s with helper := Client.noticing current s.helper } :=
    h.carried rfl hpid hname hdefined
  refine Program.wp_bind (Program.wp_modify (Program.wp_bind (Program.wp_get ?_)))
  refine Program.wp_ite (fun _ => ⟨_, h'⟩) fun hdefault => ?_
  refine Program.wp_ite (fun _ => ⟨_, h'⟩) fun _ => ?_
  refine keeps_bind h'.stopping fun stops s₁ h₁ => Program.wp_ite (fun _ => ⟨_, h₁⟩) fun _ => ?_
  exact h₁.capture hfocus (hmode.trans (congrArg some (not_not.mp hdefault)))

/-- A reconciliation keeps in touch on every path. -/
theorem InTouch.reconcile (h : InTouch pid name t s) :
    Stays pid name (Client.reconcile host) s := by
  refine keeps_bind h.stopping fun stops s₁ h₁ => Program.wp_ite (fun _ => ⟨_, h₁⟩) fun _ => ?_
  refine keeps_bind h₁.processExists fun alive s₂ h₂ =>
    Program.wp_ite (fun _ => ⟨_, h₂⟩) fun _ => ?_
  refine keeps_bind h₂.windows fun found s₃ h₃ => Program.wp_bind (Program.wp_get ?_)
  refine Program.wp_ite (fun _ => ⟨_, h₃⟩) fun _ => ?_
  have h₃' : InTouch pid name ⟨t.defined, found.any Json.isFocused, none⟩ { s₃ with
      helper := { s₃.helper with seen := s₃.helper.seen || !found.isEmpty } } :=
    h₃.carried rfl rfl rfl rfl
  refine Program.wp_bind (Program.wp_modify ?_)
  refine keeps_bind h₃'.mode fun current s₄ h₄ => ?_
  refine Program.wp_ite (fun _ => h₄.unfocused current) fun hfocus => ?_
  exact h₄.focused (by simpa using hfocus) rfl

/-! ## A run -/

/-- An event says nothing to Sway. -/
theorem InTouch.event (h : InTouch pid name t s) (kind : Nat) (fields : List (String × Json)) :
    Keeps pid name (Client.event kind fields : Client σ Unit) (fun _ => t) s := by
  unfold Client.event
  refine Program.wp_ite (fun _ => ?_) fun _ => h
  split
  · refine Program.wp_modify ?_
    dsimp only
    split
    · exact h
    · exact h.carried rfl rfl rfl rfl
  · exact ⟨_, h⟩

/-- A message is handled, whatever it is. -/
theorem InTouch.heard (h : InTouch pid name t s) (message : Except Error (Nat × Json))
    {more : Client σ Unit} (hmore : ∀ s', InTouch pid name t s' → Stays pid name more s') :
    Stays pid name (Client.heard message more) s := by
  unfold Client.heard
  split
  · exact ⟨_, h⟩
  · refine Program.wp_ite (fun _ => ⟨_, h⟩) fun _ => ?_
    split
    · exact keeps_bind (h.event _ _) fun _ s' h' => hmore s' h'
    · exact ⟨_, h⟩

/-- The loop stays in touch, however it is woken. -/
theorem stays_loop (waits : List (Option (Except Error (Nat × Json)))) {s : Session σ}
    (h : Touch pid name s) : Stays pid name (Client.loop host waits) s := by
  induction waits generalizing s with
  | nil =>
      obtain ⟨t, h⟩ := h
      exact stays_bind h.reconcile fun _ _ h' => h'
  | cons wait waits ih =>
      obtain ⟨t, h⟩ := h
      refine stays_bind h.reconcile fun goesOn s' h' => Program.wp_ite (fun _ => ?_) fun _ => h'
      obtain ⟨t', h'⟩ := h'
      cases wait with
      | none => exact ih ⟨_, h'⟩
      | some message => exact h'.heard message fun s'' h'' => ih ⟨_, h''⟩

/-- So does attending, restore included. -/
theorem stays_attend (waits : List (Option (Except Error (Nat × Json)))) {s : Session σ}
    (h : Touch pid name s) : Stays pid name (Client.attend host waits) s := by
  refine stays_bind (Program.wp_attempt (stays_loop waits h)) fun looped s₁ ⟨_, h₁⟩ => ?_
  refine stays_bind (Program.wp_attempt h₁.restore) fun restored s₂ h₂ => ?_
  refine Program.wp_ite (fun _ => h₂) fun _ => ?_
  exact Program.wp_ite (fun _ => h₂) fun _ => h₂

/-- So does a whole run. -/
theorem stays_run (reply : Except Error (Nat × Json))
    (waits : List (Option (Except Error (Nat × Json)))) {s : Session σ} (h : Touch pid name s) :
    Stays pid name (Client.run host reply waits) s := by
  unfold Client.run
  split
  · exact Program.wp_ite (fun _ => stays_attend waits h) fun _ => h
  · exact h
  · exact Program.wp_ite (fun _ => h) fun _ => h

/-- The helper at its start, in a world that is any. -/
def Session.start (pid self : Int) (token : String) (world : σ) : Session σ where
  host := world
  helper := NestedInput.init pid self token

/-- Whatever Sway replies and whenever focus, mode and signals change, all that the helper says is
permitted by what was said before, to the end of every run. -/
theorem conversation_proper (host : Host σ) (world : σ) (pid self : Int) (token : String)
    (reply : Except Error (Nat × Json)) (waits : List (Option (Except Error (Nat × Json)))) :
    Proper pid (modeName pid self token)
      (Client.run host reply waits (Session.start pid self token world)).2.said := by
  have hstart : InTouch pid (modeName pid self token) {} (Session.start pid self token world) :=
    ⟨justified_nil, rfl, rfl, rfl, rfl⟩
  have hstays : Stays pid (modeName pid self token) (Client.run host reply waits)
      (Session.start pid self token world) := stays_run reply waits ⟨_, hstart⟩
  obtain ⟨t, h⟩ := Program.after hstays
  exact h.proper

end XmonadWayland.Nested
