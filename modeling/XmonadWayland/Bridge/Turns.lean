import XmonadWayland.Base.Brackets
import XmonadWayland.Bridge.Loop

/-!
# XmonadWayland.Bridge.Turns

The calls of the main loop come in order.  A prepared read is cancelled or done before the
next one, and nothing is dispatched meanwhile; once a signal is noticed nothing is prepared,
polled, read or dispatched any more; connection, read and signal handlers are given back.
-/

namespace XmonadWayland.Bridge

/-! ## The rule -/

/-- What the main loop takes and gives back; the interrupt is taken when it is noticed. -/
inductive Resource where
  | connection
  | reading
  | handler (signal : Signal)
  | interrupt

def Call.ofConnection : Call → Hold
  | .connect ok => if ok then .take else .excludes
  | .disconnect => .giveBack
  | .restore _ _ => .excludes
  | _ => .needs

def Call.ofReading : Call → Hold
  | .prepareRead ok => if ok then .take else .excludes
  | .cancelRead => .giveBack
  | .readEvents => .giveBack
  | .poll => .needs
  | .noticed => .other
  | .flush => .other
  | _ => .excludes

def Call.ofHandler (signal : Signal) : Call → Hold
  | .install s ok => if s ≠ signal then .other else if ok then .take else .excludes
  | .restore s ok => if s ≠ signal then .other else if ok then .giveBack else .needs
  | _ => .other

def Call.ofInterrupt : Call → Hold
  | .noticed => .take
  | .exitSession => .excludes
  | .prepareRead _ => .excludes
  | .poll => .excludes
  | .readEvents => .excludes
  | .dispatchPending _ => .excludes
  | _ => .other

/-- What a call has to do with a resource. -/
def Resource.hold : Resource → Call → Hold
  | .connection => Call.ofConnection
  | .reading => Call.ofReading
  | .handler signal => Call.ofHandler signal
  | .interrupt => Call.ofInterrupt

/-- What the process holds while it is connected. -/
def Process.holds (reading : Bool) (p : Process) : Resource → Bool
  | .connection => true
  | .reading => reading
  | .handler signal => p.installed signal
  | .interrupt => p.interrupted

/-! ## What the loop does itself -/

/-- The callbacks that the calls have dispatched. -/
def Arrival.callback? : Arrival → Option Callback
  | .callback cb => some cb
  | _ => none

def Call.heard : Call → List Callback
  | .dispatchPending arrivals => arrivals.filterMap Arrival.callback?
  | _ => []

def heard (calls : List Call) : List Callback := calls.flatMap Call.heard

/-- The loop may end the run, or fail with messages of its own. -/
inductive Concluded (s : State) : List String → State → Prop
  | refl : Concluded s [] s
  | halt {own : List String} {s' : State} (h : Concluded s own s') :
      Concluded s own { s' with running := false }
  | fail {own : List String} {s' : State} (h : Concluded s own s') (message : String) :
      Concluded s (own ++ [message]) (Bridge.fail message s')

/-- A concluded state differs in its outcome only. -/
theorem Concluded.eq {s s' : State} {own : List String} (h : Concluded s own s') :
    s' = { s with
      running := s'.running
      failed := s.failed || own ≠ []
      failures := s.failures ++ own } := by
  induction h with
  | refl => simp
  | halt _ ih =>
      rw [ih]
  | fail _ message ih =>
      rw [ih]
      simp [Bridge.fail]

/-- Until it ends the run it does nothing. -/
theorem Concluded.going {s s' : State} {own : List String} (h : Concluded s own s')
    (hrunning : s'.running = true) : own = [] ∧ s' = s := by
  cases h with
  | refl => exact ⟨rfl, rfl⟩
  | halt _ => exact absurd hrunning Bool.false_ne_true
  | fail _ _ => exact absurd hrunning Bool.false_ne_true

/-- Messages about a lost connection. -/
def Process.lostMessages : List String :=
  [lostPending, lostReading, lostDispatching, lostFlushing]

/-! ## Invariants -/

def Call.released : Call → Option Proxy
  | .release _ proxy => some proxy
  | _ => none

/-- The calls are in order, and say what is held. -/
def Ordered (reading : Bool) (p : Process) : Prop :=
  ∀ r : Resource, runMonitor (bracket r.hold) false p.calls = some (p.holds reading r)

/-- The loop runs: the system is as the callbacks have made it. -/
structure Serving (start : System) (reading : Bool) (p : Process) : Prop where
  held : Ordered reading p
  system : p.system = runSystem (heard p.calls) start
  exit : p.exitSent = true ↔ .exitSession ∈ p.calls
  kept : p.calls.filterMap Call.released = []
  version : p.exitSent = true → p.manager.any (4 ≤ ·) = true

/-- Between two turns, or after the loop has ended the run. -/
structure Ran (start : System) (own : List String) (p : Process) : Prop where
  held : Ordered false p
  runtime : p.system.runtime = (runSystem (heard p.calls) start).runtime
  bridge : Concluded (runSystem (heard p.calls) start).bridge own p.system.bridge
  exit : p.exitSent = true ↔ .exitSession ∈ p.calls
  kept : p.calls.filterMap Call.released = []
  version : p.exitSent = true → p.manager.any (4 ≤ ·) = true
  forgiven : p.exitSent = true → ∀ message ∈ own, message ∉ Process.lostMessages
  reason : p.system.bridge.running = (runSystem (heard p.calls) start).bridge.running
    ∨ p.failed = true ∨ p.interrupted = true ∨ p.exitSent = true

section Invariants

variable {start : System} {reading : Bool} {own : List String} {p : Process}

/-- A process that still serves has run on. -/
theorem Serving.ran (h : Serving start false p) : Ran start [] p where
  held := h.held
  runtime := by rw [h.system]
  bridge := by rw [h.system]; exact .refl
  exit := h.exit
  kept := h.kept
  version := h.version
  forgiven _ message hmem := absurd hmem List.not_mem_nil
  reason := Or.inl (by rw [h.system])

/-- A process that ran on and still runs serves. -/
theorem Ran.serving (h : Ran start own p) (hrunning : p.system.bridge.running = true) :
    own = [] ∧ Serving start false p := by
  obtain ⟨hown, hbridge⟩ := h.bridge.going hrunning
  refine ⟨hown, h.held, ?_, h.exit, h.kept, h.version⟩
  cases hp : p.system with
  | mk bridge runtime =>
      have hruntime := h.runtime
      rw [hp] at hbridge hruntime
      cases hs : runSystem (heard p.calls) start with
      | mk bridge' runtime' =>
          rw [hs] at hbridge hruntime
          rw [show bridge = bridge' from hbridge, show runtime = runtime' from hruntime]

/-- A failure of the process' own is one more message of the run. -/
theorem Ran.fail (h : Ran start own p) {message : String}
    (hlost : p.exitSent = true → message ∉ Process.lostMessages) :
    Ran start (own ++ [message]) (p.fail message) where
  held := h.held
  runtime := h.runtime
  bridge := h.bridge.fail message
  exit := h.exit
  kept := h.kept
  version := h.version
  forgiven hexit m hm := (List.mem_append.mp hm).elim (h.forgiven hexit m)
    fun hm => List.mem_singleton.mp hm ▸ hlost hexit
  reason := Or.inr (Or.inl rfl)

/-- A process that halts with a reason has run on. -/
theorem Ran.halt (h : Ran start own p)
    (hreason : p.failed = true ∨ p.interrupted = true ∨ p.exitSent = true) :
    Ran start own p.halt :=
  ⟨h.held, h.runtime, h.bridge.halt, h.exit, h.kept, h.version, h.forgiven, Or.inr hreason⟩

/-- What is heard of two lists of calls is heard one after the other. -/
theorem heard_append (calls calls' : List Call) :
    heard (calls ++ calls') = heard calls ++ heard calls' := List.flatMap_append

/-- A call that hears nothing adds nothing. -/
theorem heard_concat_of_nil {c : Call} (hc : c.heard = []) (calls : List Call) :
    heard (calls ++ [c]) = heard calls := by
  rw [heard_append, heard, heard, List.flatMap_singleton, hc, List.append_nil]

/-- A call whose resources are as it needs them. -/
theorem Serving.call (h : Serving start reading p) {c : Call} {reading' : Bool}
    (hheld : ∀ r : Resource, bracket r.hold (p.holds reading r) c = some (p.holds reading' r))
    (hheard : c.heard = []) (hexit : c ≠ .exitSession) (hkept : c.released = none) :
    Serving start reading' (p.call c) where
  held r := by
    rw [show (p.call c).calls = p.calls ++ [c] from rfl, runMonitor_concat (h.held r), hheld r]
    rfl
  system := by
    rw [show (p.call c).calls = p.calls ++ [c] from rfl, heard_concat_of_nil hheard]
    exact h.system
  exit := h.exit.trans ⟨List.mem_append_left _, fun hmem => (List.mem_append.mp hmem).elim id
    fun hc => absurd (List.mem_singleton.mp hc).symm hexit⟩
  kept := by
    rw [show (p.call c).calls = p.calls ++ [c] from rfl, List.filterMap_append, h.kept]
    simp [hkept]
  version := h.version

/-- A signal is noticed once. -/
theorem look_cases (p : Process) : p.look.calls = p.calls ∧ p.look.interrupted = p.interrupted
    ∨ p.interrupted = false ∧ p.look.calls = p.calls ++ [.noticed] ∧ p.look.interrupted = true := by
  unfold Process.look
  split
  · next hsignal =>
    rw [Bool.and_eq_true, Bool.not_eq_true'] at hsignal
    exact Or.inr ⟨hsignal.1, rfl, rfl⟩
  · exact Or.inl ⟨rfl, rfl⟩

/-- Looking at the signals keeps the bridge and the exit. -/
theorem look_keeps (p : Process) : p.look.system = p.system ∧ p.look.exitSent = p.exitSent
    ∧ p.look.manager = p.manager ∧ p.look.installed = p.installed := by
  unfold Process.look
  split <;> exact ⟨rfl, rfl, rfl, rfl⟩

/-- Looking at the signals hears, asks and releases nothing. -/
theorem heard_look (p : Process) : heard p.look.calls = heard p.calls
    ∧ (.exitSession ∈ p.look.calls ↔ .exitSession ∈ p.calls)
    ∧ p.look.calls.filterMap Call.released = p.calls.filterMap Call.released := by
  rcases look_cases p with ⟨hcalls, -⟩ | ⟨-, hcalls, -⟩
  · rw [hcalls]
    exact ⟨rfl, Iff.rfl, rfl⟩
  · rw [hcalls]
    exact ⟨heard_concat_of_nil rfl _, by simp, by simp [Call.released]⟩

/-- Looking at the signals keeps the order of the calls. -/
theorem Ordered.look (h : Ordered reading p) : Ordered reading p.look := by
  obtain ⟨-, -, -, hinstalled⟩ := look_keeps p
  intro r
  have hholds : ∀ r, r ≠ .interrupt → p.look.holds reading r = p.holds reading r := by
    intro r hr
    cases r with
    | handler signal => exact congrFun hinstalled signal
    | interrupt => exact absurd rfl hr
    | _ => rfl
  rcases look_cases p with ⟨hcalls, hsame⟩ | ⟨hfree, hcalls, hnoticed⟩
  · rw [hcalls, h r]
    cases r with
    | interrupt => exact congrArg some hsame.symm
    | _ => exact congrArg some (hholds _ (by simp)).symm
  · rw [hcalls, runMonitor_concat (h r)]
    cases r with
    | interrupt =>
        change bracket _ p.interrupted _ = some p.look.interrupted
        rw [hfree, hnoticed]
        exact bracket_take rfl
    | _ => exact (bracket_of_keeps rfl).trans (congrArg some (hholds _ (by simp)).symm)

/-- A serving process serves after a look. -/
theorem Serving.look (h : Serving start reading p) : Serving start reading p.look := by
  obtain ⟨hsystem, hexit, hmanager, -⟩ := look_keeps p
  obtain ⟨hheard, hsession, hkept⟩ := heard_look p
  exact ⟨h.held.look, by rw [hsystem, hheard, h.system], by rw [hexit, hsession]; exact h.exit,
    hkept.trans h.kept, by rw [hexit, hmanager]; exact h.version⟩

/-- A process that ran on has run on after a look. -/
theorem Ran.look (h : Ran start own p) : Ran start own p.look := by
  obtain ⟨hsystem, hexit, hmanager, -⟩ := look_keeps p
  obtain ⟨hheard, hsession, hkept⟩ := heard_look p
  refine ⟨h.held.look, by rw [hsystem, hheard, h.runtime], by rw [hsystem, hheard]; exact h.bridge,
    by rw [hexit, hsession]; exact h.exit, hkept.trans h.kept,
    by rw [hexit, hmanager]; exact h.version,
    by rw [hexit]; exact h.forgiven, ?_⟩
  rw [hsystem, hheard, hexit]
  refine h.reason.imp_right fun hreason => ?_
  rcases hreason with hfailed | hinterrupted | hsent
  · exact Or.inl (by rw [Process.failed, hsystem]; exact hfailed)
  · refine Or.inr (Or.inl ?_)
    rcases look_cases p with ⟨-, hsame⟩ | ⟨-, -, hnoticed⟩
    · exact hsame.trans hinterrupted
    · exact hnoticed
  · exact Or.inr (Or.inr hsent)

/-! ## One turn -/

/-- What arrivals leave alone. -/
theorem foldl_arrive (arrivals : List Arrival) (p : Process) :
    (arrivals.foldl Process.arrive p).calls = p.calls
      ∧ (∀ reading, (arrivals.foldl Process.arrive p).holds reading = p.holds reading)
      ∧ (arrivals.foldl Process.arrive p).exitSent = p.exitSent
      ∧ (p.manager.isSome → (arrivals.foldl Process.arrive p).manager = p.manager)
      ∧ (arrivals.foldl Process.arrive p).system
        = runSystem (arrivals.filterMap Arrival.callback?) p.system := by
  induction arrivals generalizing p with
  | nil => exact ⟨rfl, fun _ => rfl, rfl, fun _ => rfl, rfl⟩
  | cons arrival arrivals ih =>
      obtain ⟨hcalls, hholds, hexit, hmanager, hsystem⟩ := ih (p.arrive arrival)
      rw [List.foldl_cons]
      cases arrival with
      | manager version =>
          have hkept : (p.arrive (.manager version)).system = p.system
              ∧ (p.arrive (.manager version)).calls = p.calls
              ∧ (∀ reading, (p.arrive (.manager version)).holds reading = p.holds reading)
              ∧ (p.arrive (.manager version)).exitSent = p.exitSent
              ∧ (p.manager.isSome → (p.arrive (.manager version)).manager = p.manager) := by
            unfold Process.arrive Process.registryGlobal
            simp only
            split
            · exact ⟨rfl, rfl, fun _ => rfl, rfl, fun _ => rfl⟩
            · next hfresh =>
              exact ⟨rfl, rfl, fun _ => rfl, rfl, fun hsome => absurd (Or.inr hsome) hfresh⟩
          obtain ⟨hsame, hcalls', hholds', hexit', hmanager'⟩ := hkept
          refine ⟨hcalls.trans hcalls', fun r => (hholds r).trans (hholds' r), hexit.trans hexit',
            fun hsome => ?_, hsystem.trans (by rw [hsame]; rfl)⟩
          exact (hmanager (hmanager' hsome ▸ hsome)).trans (hmanager' hsome)
      | discovered => exact ⟨hcalls, hholds, hexit, hmanager, hsystem⟩
      | callback cb => exact ⟨hcalls, hholds, hexit, hmanager, hsystem⟩

/-- Dispatching reads no signal. -/
theorem interrupted_dispatchPending (arrivals : List Arrival) (p : Process) :
    (p.dispatchPending arrivals).interrupted = p.interrupted :=
  congrFun ((foldl_arrive arrivals (p.call (.dispatchPending arrivals))).2.1 false) .interrupt

/-- A serving process serves after a dispatch. -/
theorem Serving.dispatchPending (h : Serving start false p) (hfree : p.interrupted = false)
    (arrivals : List Arrival) : Serving start false (p.dispatchPending arrivals) := by
  obtain ⟨hcalls, hholds, hexit, hmanager, hsystem⟩ :=
    foldl_arrive arrivals (p.call (.dispatchPending arrivals))
  have hcalled : (p.dispatchPending arrivals).calls = p.calls ++ [.dispatchPending arrivals] :=
    hcalls
  refine ⟨fun r => ?_, ?_, ?_, ?_, fun hsent => ?_⟩
  · rw [hcalled, runMonitor_concat (h.held r)]
    change _ = some ((List.foldl _ _ _ : Process).holds false r)
    rw [hholds]
    cases r with
    | interrupt =>
        change bracket _ p.interrupted _ = some p.interrupted
        rw [hfree]
        exact bracket_of_keeps rfl
    | _ => exact bracket_of_keeps rfl
  · rw [hcalled, heard_append, runSystem, List.foldl_append]
    refine hsystem.trans ?_
    rw [show (p.call (.dispatchPending arrivals)).system = p.system from rfl, h.system]
    simp only [heard, Call.heard, List.flatMap_cons, List.flatMap_nil, List.append_nil]
    rfl
  · rw [hcalled]
    refine Iff.trans (Eq.congr_left hexit) (h.exit.trans ⟨List.mem_append_left _, fun hmem => ?_⟩)
    exact (List.mem_append.mp hmem).elim id fun hc => absurd (List.mem_singleton.mp hc) (by simp)
  · rw [hcalled, List.filterMap_append, h.kept]
    rfl
  · have hsome := h.version (hexit ▸ hsent)
    have hmanaged : p.manager.isSome := by
      cases hm : p.manager with
      | none => rw [hm] at hsome; exact absurd hsome Bool.false_ne_true
      | some version => rfl
    change Option.any _ (List.foldl _ _ _ : Process).manager = true
    rw [hmanager hmanaged]
    exact hsome

/-- The calls between two dispatches. -/
def Call.inTurn : Call → Bool
  | .prepareRead _ => true
  | .cancelRead => true
  | .readEvents => true
  | .flush => true
  | .poll => true
  | _ => false

/-- Such a call changes the read only. -/
theorem Serving.turn (h : Serving start reading p) {c : Call} {reading' : Bool}
    (hturn : c.inTurn = true) (hreading : bracket Call.ofReading reading c = some reading')
    (hfree : c.ofInterrupt = .excludes → p.interrupted = false) :
    Serving start reading' (p.call c) := by
  refine h.call (fun r => ?_) (by cases c <;> first | rfl | contradiction)
    (by rintro rfl; contradiction) (by cases c <;> first | rfl | contradiction)
  cases r with
  | reading => exact hreading
  | connection =>
      refine bracket_of_keeps ?_
      cases c <;> first | rfl | contradiction
  | handler signal =>
      refine bracket_of_keeps ?_
      cases c <;> first | rfl | contradiction
  | interrupt =>
      change bracket Call.ofInterrupt p.interrupted c = some p.interrupted
      refine bracket_of_keeps ?_
      cases c <;> first | rfl | contradiction | (rw [hfree rfl]; rfl)

/-- A cancelled read leaves the process serving. -/
theorem Serving.cancelRead (h : Serving start true p) : Serving start false (p.call .cancelRead) :=
  h.turn rfl rfl fun hc => absurd hc (by decide)

/-- Asking the session to exit leaves the process serving. -/
theorem Serving.requestExit (h : Serving start false p) (hfree : p.interrupted = false)
    (requested : Bool) : Serving start false (p.requestExit requested) := by
  unfold Process.requestExit
  split
  · next hexit =>
    rw [Bool.and_eq_true] at hexit
    refine ⟨fun r => ?_, ?_, ?_, ?_, fun _ => hexit.2⟩
    · change runMonitor _ false (p.calls ++ [.exitSession]) = some (p.holds false r)
      rw [runMonitor_concat (h.held r)]
      cases r with
      | interrupt =>
          change bracket _ p.interrupted _ = some p.interrupted
          rw [hfree]
          exact bracket_of_keeps rfl
      | _ => exact bracket_of_keeps rfl
    · change p.system = runSystem (heard (p.calls ++ [.exitSession])) start
      rw [heard_concat_of_nil rfl]
      exact h.system
    · exact ⟨fun _ => List.mem_append_right _ (List.mem_singleton_self _), fun _ => rfl⟩
    · change (p.calls ++ [Call.exitSession]).filterMap Call.released = []
      rw [List.filterMap_append, h.kept]
      rfl
  · exact h

/-- A process that is not stopped is free of signals and runs. -/
theorem free_of_not_stopped (h : p.stopped = false) :
    p.interrupted = false ∧ p.system.bridge.running = true := by
  unfold Process.stopped at h
  simp only [Bool.or_eq_false_iff, Bool.not_eq_false'] at h
  exact h.1

/-- Reading is prepared, or the turn ends. -/
theorem Serving.prepareRead (pending : List Batch) (h : Serving start false p)
    (hfree : p.interrupted = false) :
    ∃ p', (p.prepareRead pending = (p', true) ∧ Serving start true p')
      ∨ p.prepareRead pending = (p', false) ∧ ∃ own, Ran start own p' := by
  induction pending generalizing p with
  | nil => exact ⟨_, Or.inl ⟨rfl, h.turn rfl rfl fun _ => hfree⟩⟩
  | cons batch pending ih =>
      have hlook : Serving start false (p.call (.prepareRead false)).look :=
        (h.turn rfl rfl fun _ => hfree).look
      unfold Process.prepareRead
      simp only
      split
      · exact ⟨_, Or.inr ⟨rfl, [], hlook.ran⟩⟩
      · next hstopped =>
        obtain ⟨hfree', -⟩ := free_of_not_stopped (Bool.eq_false_iff.mpr hstopped)
        have hdispatched := hlook.dispatchPending hfree' batch.arrivals
        split
        · refine ⟨_, Or.inr ⟨rfl, ?_⟩⟩
          split
          · next hlost =>
            rw [Bool.and_eq_true, Bool.not_eq_true', Bool.not_eq_true'] at hlost
            exact ⟨_, (hdispatched.look.ran.fail fun hexit => absurd (hlost.2.symm.trans hexit)
              Bool.false_ne_true).halt (Or.inl rfl)⟩
          · next hended =>
            refine ⟨[], hdispatched.look.ran.halt (Or.inr ?_)⟩
            simpa [imp_iff_not_or] using hended
        · exact ih hdispatched ((interrupted_dispatchPending _ _).trans hfree')

/-- A connection that is lost is a failure, unless the exit was requested. -/
theorem Ran.unless (h : Ran start own p) (lost : Bool) (message : String) :
    ∃ own, Ran start own (if !p.interrupted && !p.exitSent && lost then p.fail message else p) := by
  split
  · next hlost =>
    rw [Bool.and_eq_true, Bool.and_eq_true, Bool.not_eq_true', Bool.not_eq_true'] at hlost
    exact ⟨_, h.fail fun hsent => absurd (hlost.1.2.symm.trans hsent) Bool.false_ne_true⟩
  · exact ⟨own, h⟩

/-- The halt after the exit was asked for has its reason. -/
theorem Ran.atExit (h : Ran start own p) : Ran start own (if p.exitSent then p.halt else p) := by
  split
  · next hsent => exact h.halt (Or.inr (Or.inr hsent))
  · exact h

/-- A read ends in a run with its own messages. -/
theorem Serving.readEvents (h : Serving start true p) (hfree : p.interrupted = false)
    (answers : Answers) : ∃ own, Ran start own (p.readEvents answers) := by
  have hread : Serving start false (p.call .readEvents).look := (h.turn rfl rfl fun _ => hfree).look
  unfold Process.readEvents
  simp only
  split
  · obtain ⟨own, hran⟩ := hread.ran.unless _ _
    exact ⟨own, hran.atExit⟩
  · split
    · exact ⟨[], hread.ran⟩
    · next hnoticed =>
      have hdispatched := hread.dispatchPending (Bool.eq_false_iff.mpr hnoticed)
        answers.batch.arrivals
      split
      · have hlook := hdispatched.look
        split
        · exact ⟨[], hlook.ran⟩
        · split
          · next hsent => exact ⟨[], hlook.ran.halt (Or.inr (Or.inr hsent))⟩
          · next hexit =>
            exact ⟨_, hlook.ran.fail fun hsent => absurd hsent hexit⟩
      · exact ⟨[], hdispatched.ran⟩

/-- So does one poll. -/
theorem Serving.pollOnce (h : Serving start true p) (hfree : p.interrupted = false)
    (answers : Answers) : ∃ own, Ran start own (p.pollOnce answers) := by
  have hpolled : Serving start true (p.call .poll).look := (h.turn rfl rfl fun _ => hfree).look
  unfold Process.pollOnce
  simp only
  split
  · have hlook := hpolled.cancelRead.look
    split
    · exact ⟨_, hlook.ran.fail fun _ => by decide⟩
    · exact ⟨[], hlook.ran⟩
  · exact ⟨[], hpolled.cancelRead.ran⟩
  · split
    · exact ⟨[], hpolled.cancelRead.ran⟩
    · next hnoticed =>
      split
      · exact hpolled.readEvents (Bool.eq_false_iff.mpr hnoticed) answers
      · split
        · exact ⟨_, hpolled.cancelRead.ran.fail fun _ => by decide⟩
        · exact ⟨[], hpolled.cancelRead.ran⟩

/-- So does one flush. -/
theorem Serving.flushOnce (h : Serving start true p) (hfree : p.interrupted = false)
    (answers : Answers) : ∃ own, Ran start own (p.flushOnce answers) := by
  have hflushed : Serving start true (p.call .flush) := h.turn rfl rfl fun _ => hfree
  unfold Process.flushOnce
  simp only
  split
  · exact hflushed.pollOnce hfree answers
  · obtain ⟨own, hran⟩ := hflushed.cancelRead.look.ran.unless _ _
    exact ⟨own, hran.atExit⟩

/-- A turn starts with the loop running and ends with the read given back. -/
theorem Serving.dispatchOnce (h : Serving start false p) (hfree : p.interrupted = false)
    (answers : Answers) : ∃ own, Ran start own (p.dispatchOnce answers) := by
  have hfree' : (p.requestExit answers.exitRequested).interrupted = false := by
    unfold Process.requestExit
    split <;> exact hfree
  obtain ⟨p', hprepared⟩ :=
    (h.requestExit hfree answers.exitRequested).prepareRead answers.pending hfree'
  unfold Process.dispatchOnce
  rcases hprepared with ⟨heq, hserving⟩ | ⟨heq, hran⟩
  · rw [heq]
    simp only
    split
    · exact ⟨[], hserving.look.cancelRead.ran⟩
    · next hstopped =>
      exact hserving.look.flushOnce (free_of_not_stopped (Bool.eq_false_iff.mpr hstopped)).1 answers
  · rw [heq]
    exact hran

/-! ## The loop -/

/-- The condition of a loop: the loop runs, or it is left for a reason. -/
theorem Ran.goesOn (h : Ran start own p) (waits : Process → Bool) :
    (p.goesOn waits).2 = true ∧ Serving start false (p.goesOn waits).1
        ∧ (p.goesOn waits).1.stopped = false
      ∨ (p.goesOn waits).2 = false ∧ (∃ own, Ran start own (p.goesOn waits).1)
        ∧ (waits (p.goesOn waits).1 = false ∨ (p.goesOn waits).1.stopped = true) := by
  unfold Process.goesOn
  split
  · next hwaits =>
    rw [Bool.and_eq_true, Bool.and_eq_true] at hwaits
    have hlook := (h.serving hwaits.1.2).2.look
    cases hnoticed : p.look.interrupted with
    | false =>
        refine Or.inl ⟨rfl, hlook, ?_⟩
        rw [Bool.not_eq_true'] at hwaits
        simp only [Process.stopped, Process.failed, (look_keeps p).1, hnoticed, hwaits.1.2]
        exact hwaits.2
    | true => exact Or.inr ⟨rfl, ⟨[], hlook.ran⟩, Or.inr (by simp [Process.stopped, hnoticed])⟩
  · next hends =>
    refine Or.inr ⟨rfl, ⟨own, h⟩, ?_⟩
    simp only [Process.stopped]
    cases hw : waits p <;> cases hr : p.system.bridge.running <;> cases hf : p.failed <;> simp_all

/-- A loop keeps what holds between turns. -/
theorem Ran.dispatchWhile (waits : Process → Bool) (script : List Answers) (h : Ran start own p) :
    (p.dispatchWhile waits script).2 = none ∧ Serving start false (p.dispatchWhile waits script).1
        ∧ (p.dispatchWhile waits script).1.stopped = false
      ∨ (p.dispatchWhile waits script).2.isSome
        ∧ (∃ own, Ran start own (p.dispatchWhile waits script).1)
        ∧ (waits (p.dispatchWhile waits script).1 = false
          ∨ (p.dispatchWhile waits script).1.stopped = true) := by
  induction script generalizing own p with
  | nil =>
      unfold Process.dispatchWhile
      simp only
      rcases h.goesOn waits with ⟨hmore, hserving, hfree⟩ | ⟨hmore, hran, hreason⟩
      · rw [hmore]
        exact Or.inl ⟨rfl, hserving, hfree⟩
      · rw [hmore]
        exact Or.inr ⟨rfl, hran, hreason⟩
  | cons answers script ih =>
      unfold Process.dispatchWhile
      simp only
      rcases h.goesOn waits with ⟨hmore, hserving, hfree⟩ | ⟨hmore, hran, hreason⟩
      · rw [hmore]
        obtain ⟨own', hturn⟩ := hserving.dispatchOnce (free_of_not_stopped hfree).1 answers
        exact ih hturn
      · rw [hmore]
        exact Or.inr ⟨rfl, hran, hreason⟩

/-! ## Before the loop -/

/-- Either the loop may start or the process has failed. -/
structure Settled (start : System) (p : Process) : Prop where
  ran : ∃ own, Ran start own p
  serving : p.failed = false → Serving start false p

/-- A serving process is settled. -/
theorem Serving.settled (h : Serving start false p) : Settled start p :=
  ⟨⟨[], h.ran⟩, fun _ => h⟩

/-- A failed preparation is settled. -/
theorem Serving.settledFail (h : Serving start false p) {message : String}
    (hlost : message ∉ Process.lostMessages) : Settled start (p.fail message) :=
  ⟨⟨_, h.ran.fail fun _ => hlost⟩, fun hok => absurd hok.symm Bool.false_ne_true⟩

/-- A preparation step runs only while nothing failed. -/
theorem Settled.andThen (h : Settled start p) {f : Process → Process}
    (hf : Serving start false p → Settled start (f p)) :
    Settled start (if p.failed then p else f p) := by
  split
  · exact h
  · next hok => exact hf (h.serving (Bool.eq_false_iff.mpr hok))

/-- Installing one handler is settled. -/
theorem Serving.sigaction (h : Serving start false p) {signal : Signal}
    (hfresh : p.installed signal = false) (env : Environment) {message : String}
    (hlost : message ∉ Process.lostMessages) : Settled start (p.sigaction env signal message) := by
  unfold Process.sigaction
  simp only
  split
  · next hok =>
    rw [hok]
    refine Serving.settled ⟨fun r => ?_, ?_, ?_, ?_, h.version⟩
    · change runMonitor _ false (p.calls ++ [.install signal true]) = _
      rw [runMonitor_concat (h.held r)]
      cases r with
      | connection => exact bracket_of_keeps rfl
      | reading => exact bracket_of_keeps rfl
      | interrupt => exact bracket_of_keeps rfl
      | handler s =>
          change bracket (Call.ofHandler s) (p.installed s) _ = some (p.installed s || s = signal)
          by_cases hs : s = signal
          · subst hs
            rw [hfresh, decide_eq_true rfl]
            exact bracket_take (by simp [Call.ofHandler])
          · rw [decide_eq_false hs, Bool.or_false]
            exact bracket_of_keeps (by simp [Call.ofHandler, Ne.symm hs, Hold.keeps])
    · change p.system = runSystem (heard (p.calls ++ [.install signal true])) start
      rw [heard_concat_of_nil rfl]
      exact h.system
    · exact h.exit.trans ⟨List.mem_append_left _, fun hmem => (List.mem_append.mp hmem).elim id
        fun hc => absurd (List.mem_singleton.mp hc) (by simp)⟩
    · change (p.calls ++ [Call.install signal true]).filterMap Call.released = []
      rw [List.filterMap_append, h.kept]
      rfl
  · next hok =>
    rw [Bool.eq_false_iff.mpr hok]
    refine Serving.settledFail
      (h.call (c := .install signal false) (fun r => ?_) rfl (by simp) rfl) hlost
    cases r with
    | connection => exact bracket_of_keeps rfl
    | reading => exact bracket_of_keeps rfl
    | interrupt => exact bracket_of_keeps rfl
    | handler s =>
        change bracket (Call.ofHandler s) (p.installed s) _ = some (p.installed s)
        refine bracket_of_keeps ?_
        by_cases hs : s = signal
        · subst hs
          rw [hfresh]
          simp [Call.ofHandler, Hold.keeps]
        · simp [Call.ofHandler, Ne.symm hs, Hold.keeps]

/-- Installing one handler leaves the others. -/
theorem installed_sigaction {signal s : Signal} (hs : s ≠ signal) (env : Environment)
    (message : String) (p : Process) :
    (p.sigaction env signal message).installed s = p.installed s := by
  unfold Process.sigaction
  simp only
  split
  · change (p.installed s || decide (s = signal)) = p.installed s
    rw [decide_eq_false hs, Bool.or_false]
  · rfl

/-- Installing the handlers is settled. -/
theorem Serving.installSignalHandlers (h : Serving start false p)
    (hfresh : ∀ signal, p.installed signal = false) (env : Environment) :
    Settled start (p.installSignalHandlers env) := by
  refine (h.sigaction (hfresh .int) env (by decide)).andThen fun hserving => ?_
  exact hserving.sigaction ((installed_sigaction (by decide) env _ p).trans (hfresh .term)) env
    (by decide)

/-- Starting the registry is settled. -/
theorem Serving.startRegistry (h : Serving start false p) (env : Environment) :
    Settled start (p.startRegistry env) := by
  have hregistry : Serving start false { p with registry := env.registry } :=
    ⟨h.held, h.system, h.exit, h.kept, h.version⟩
  unfold Process.startRegistry
  simp only
  split
  · exact hregistry.settledFail (by decide)
  · split
    · exact hregistry.settledFail (by decide)
    · exact hregistry.settled

/-- Starting the registry installs no handler. -/
theorem installed_startRegistry (env : Environment) (p : Process) :
    (p.startRegistry env).installed = p.installed := by
  unfold Process.startRegistry
  simp only
  split
  · rfl
  · split <;> rfl

theorem Serving.startDiscovery (h : Serving start false p) (env : Environment) :
    Settled start (p.startDiscovery env) := by
  have hdiscovery : Serving start false { p with discovery := env.discovery } :=
    ⟨h.held, h.system, h.exit, h.kept, h.version⟩
  unfold Process.startDiscovery
  simp only
  split
  · exact hdiscovery.settled
  · exact hdiscovery.settledFail (by decide)

theorem Serving.setUp (h : Serving start false p) (hfresh : ∀ signal, p.installed signal = false)
    (env : Environment) : Settled start (p.setUp env) := by
  have hinstalled : Settled start (if (p.startRegistry env).failed then p.startRegistry env
      else (p.startRegistry env).installSignalHandlers env) := by
    refine (h.startRegistry env).andThen fun hserving => ?_
    exact hserving.installSignalHandlers (installed_startRegistry env p ▸ hfresh) env
  exact hinstalled.andThen fun hserving => hserving.startDiscovery env

/-! ## After the loop -/

theorem Ran.requireGlobal (h : Ran start own p) (present : Process → Bool) {message : String}
    (hlost : message ∉ Process.lostMessages) :
    ∃ own, Ran start own (p.requireGlobal present message) := by
  unfold Process.requireGlobal
  simp only
  split
  · exact ⟨_, h.look.fail fun _ => hlost⟩
  · exact ⟨own, h.look⟩

theorem Ran.requireGlobals (h : Ran start own p) : ∃ own, Ran start own p.requireGlobals := by
  have hmissing : Process.missingManager ∉ Process.lostMessages
      ∧ Process.missingXkb ∉ Process.lostMessages := by decide
  obtain ⟨own', hmanager⟩ := h.requireGlobal (fun p => p.manager.isSome) hmissing.1
  exact hmanager.requireGlobal (fun p => p.system.bridge.xkb) hmissing.2

/-- The calls between the loop and the return. -/
def Process.closing (env : Environment) (p : Process) : List Call :=
  p.proxies.map (fun proxy => .release (p.byProtocol && proxy.hasDestructor) proxy)
  ++ (if p.byProtocol then [.flush] else [])
  ++ [.disconnect]
  ++ (if p.installed .term then [.restore .term (env.restore .term)] else [])
  ++ if p.installed .int then [.restore .int (env.restore .int)] else []

theorem kept_restoreSignal (env : Environment) (signal : Signal) (message : String) (p : Process) :
    (p.restoreSignal env signal message).calls = p.calls
        ++ (if p.installed signal then [.restore signal (env.restore signal)] else [])
      ∧ (p.restoreSignal env signal message).installed = p.installed := by
  unfold Process.restoreSignal
  split
  · simp only
    split <;> exact ⟨rfl, rfl⟩
  · exact ⟨(List.append_nil _).symm, rfl⟩

theorem calls_closing (env : Environment) (p : Process) :
    (p.cleanup.restoreSignalHandlers env).calls = p.calls ++ p.closing env := by
  obtain ⟨hterm, hinstalled⟩ := kept_restoreSignal env .term
    "could not restore original SIGTERM handler" p.cleanup
  obtain ⟨hint, -⟩ := kept_restoreSignal env .int "could not restore original SIGINT handler"
    (p.cleanup.restoreSignal env .term "could not restore original SIGTERM handler")
  unfold Process.restoreSignalHandlers
  rw [hint, hinstalled, hterm]
  simp only [Process.cleanup, Process.closing, List.append_assoc]

/-- What is left at the return. -/
def Process.leaves (env : Environment) (p : Process) : Resource → Bool
  | .handler signal => p.installed signal && !env.restore signal
  | .interrupt => p.interrupted
  | _ => false

/-- What is held once the connection is closed. -/
def Process.holdsAfter (p : Process) : Resource → Bool
  | .connection => false
  | r => p.holds false r

theorem bracket_disconnect (r : Resource) :
    bracket r.hold (p.holds false r) .disconnect = some (p.holdsAfter r) := by
  cases r with
  | connection => exact bracket_giveBack rfl
  | _ => exact bracket_of_keeps rfl

theorem run_restore (signal : Signal) (ok held : Bool) :
    runMonitor (bracket (Call.ofHandler signal)) held (if held then [.restore signal ok] else [])
      = some (held && !ok) := by
  cases held <;> cases ok <;>
    simp [runMonitor_singleton, bracket, Call.ofHandler]

/-- The handler of a signal has nothing to do with that of another. -/
theorem run_restore_of_keeps {r : Resource} {held : Bool} {signal : Signal} (ok installed : Bool)
    (h : (r.hold (.restore signal ok)).keeps held = true) :
    runMonitor (bracket r.hold) held (if installed then [.restore signal ok] else [])
      = some held := by
  refine bracket_log_of_keeps fun e he => ?_
  rw [List.mem_ite_nil_right, List.mem_singleton] at he
  rw [he.2]
  exact h

theorem Ordered.closing (h : Ordered false p) (env : Environment) (r : Resource) :
    runMonitor (bracket r.hold) false (p.cleanup.restoreSignalHandlers env).calls
      = some (p.leaves env r) := by
  rw [calls_closing, runMonitor_append, h r, Option.bind_some, Process.closing, runMonitor_append,
    runMonitor_append, runMonitor_append, runMonitor_append]
  have hreleases : runMonitor (bracket r.hold) (p.holds false r) (p.proxies.map fun proxy =>
      .release (p.byProtocol && proxy.hasDestructor) proxy)
      = some (p.holds false r) := by
    refine bracket_log_of_keeps fun e he => ?_
    obtain ⟨proxy, -, rfl⟩ := List.mem_map.mp he
    cases r <;> rfl
  have hflush : runMonitor (bracket r.hold) (p.holds false r)
      (if p.byProtocol then [.flush] else []) = some (p.holds false r) := by
    refine bracket_log_of_keeps fun e he => ?_
    rw [List.mem_ite_nil_right, List.mem_singleton] at he
    rw [he.2]
    cases r <;> rfl
  rw [hreleases, Option.bind_some, hflush, Option.bind_some, runMonitor_singleton,
    bracket_disconnect, Option.bind_some]
  cases r with
  | handler signal =>
      cases signal with
      | int =>
          rw [run_restore_of_keeps _ _ rfl, Option.bind_some]
          exact run_restore .int _ _
      | term =>
          have hterm : runMonitor (bracket (Resource.handler .term).hold)
              (p.holdsAfter (.handler .term))
              (if p.installed .term then [.restore .term (env.restore .term)] else [])
              = some (p.installed .term && !env.restore .term) := run_restore .term _ _
          rw [hterm, Option.bind_some]
          exact run_restore_of_keeps _ _ rfl
  | _ =>
      rw [run_restore_of_keeps _ _ rfl, Option.bind_some]
      exact run_restore_of_keeps _ _ rfl

theorem failed_restoreSignal (env : Environment) (signal : Signal) (message : String)
    (p : Process) : (p.restoreSignal env signal message).failed
      = (p.failed || (p.installed signal && !env.restore signal)) := by
  unfold Process.restoreSignal
  split
  · next hinstalled =>
    rw [hinstalled]
    simp only
    split
    · next hok => simp [hok, Process.failed, Process.call]
    · next hok => simp [hok, Process.failed, Process.fail, System.onBridge, Bridge.fail]
  · next hnot => simp [hnot]

/-- A handler that stays is a failure. -/
theorem failed_closing (env : Environment) (p : Process) :
    (p.cleanup.restoreSignalHandlers env).failed = (p.failed
      || (p.installed .term && !env.restore .term) || (p.installed .int && !env.restore .int)) := by
  unfold Process.restoreSignalHandlers
  rw [failed_restoreSignal, failed_restoreSignal, (kept_restoreSignal _ _ _ _).2]
  rfl

/-! ## Whole runs -/

/-- A run without a connection, one that goes on, one that has returned. -/
inductive Course (env : Environment) (start : System) : Process × Option Nat → Prop
  | unconnected (p : Process) : env.connected = false → p.calls = [.connect false] →
      Course env start (p, some 1)
  | running (p : Process) : env.connected = true → Serving start false p → p.stopped = false →
      Course env start (p, none)
  | returned (p : Process) (own : List String) : env.connected = true → Ran start own p →
      p.stopped = true → Course env start (p.cleanup.restoreSignalHandlers env,
        some (if (p.cleanup.restoreSignalHandlers env).failed then 1 else 0))

theorem serving_connect (signals : List Bool) (start : System) :
    Serving start false (Process.call (.connect true) { system := start, signals := signals }) where
  held r := by
    cases r with
    | connection => exact (runMonitor_singleton _).trans (bracket_take rfl)
    | _ => exact (runMonitor_singleton _).trans (bracket_of_keeps rfl)
  system := rfl
  exit := ⟨fun hsent => absurd hsent Bool.false_ne_true, fun hmem =>
    absurd (List.mem_singleton.mp hmem) (by simp)⟩
  kept := rfl
  version hsent := absurd hsent Bool.false_ne_true

theorem course_xwRun (env : Environment) (script : List Answers) (signals : List Bool)
    (start : System) : Course env start (Process.xwRun env script signals start) := by
  obtain ⟨own, hready⟩ := ((serving_connect signals start).setUp (fun _ => rfl) env).ran
  have hdiscovery := hready.dispatchWhile (fun p => !p.discoveryDone) script
  unfold Process.xwRun
  simp only
  split
  · next hnot => exact .unconnected _ (Bool.not_eq_true' _ ▸ hnot) rfl
  · next hnot =>
    have hconnected : env.connected = true := by simpa using hnot
    split
    · next p heq =>
      rw [heq] at hdiscovery
      rcases hdiscovery with ⟨-, hserving, hgoing⟩ | ⟨hsome, -⟩
      · exact .running p hconnected hserving hgoing
      · exact absurd hsome Bool.false_ne_true
    · next p rest heq =>
      rw [heq] at hdiscovery
      rcases hdiscovery with ⟨hnone, -⟩ | ⟨-, ⟨own', hdiscovered⟩, -⟩
      · contradiction
      · obtain ⟨own'', hglobals⟩ := hdiscovered.requireGlobals
        have hloop := hglobals.dispatchWhile (fun _ => true) rest
        split
        · next q heq' =>
          rw [heq'] at hloop
          rcases hloop with ⟨-, hserving, hgoing⟩ | ⟨hsome, -⟩
          · exact .running q hconnected hserving hgoing
          · exact absurd hsome Bool.false_ne_true
        · next q left heq' =>
          rw [heq'] at hloop
          rcases hloop with ⟨hnone, -⟩ | ⟨-, ⟨own₃, hended⟩, hwaits | hstopped⟩
          · contradiction
          · exact absurd hwaits.symm Bool.false_ne_true
          · exact .returned q own₃ hconnected hended hstopped

end Invariants

/-- **Order of the main loop**: in every run, whatever libwayland and the kernel answer, each
resource is taken and given back in turn and used as it allows.  Reading is prepared once at a
time, polled only while it is prepared, and nothing is dispatched before it is cancelled or done;
once a signal has been noticed nothing is prepared, polled, read or dispatched.  When `xw_run`
returns, the connection and the read are given back, and a handler that is not is a failure. -/
theorem calls_in_order (env : Environment) (script : List Answers) (signals : List Bool)
    (start : System) (r : Resource) :
    let run := Process.xwRun env script signals start
    ∃ held, runMonitor (bracket r.hold) false run.1.calls = some held
      ∧ (run.2.isSome → held = true → r = .interrupt
        ∨ run.2 = some 1 ∧ ∃ signal, r = .handler signal ∧ env.restore signal = false) := by
  intro run
  have hcourse : Course env start run := course_xwRun env script signals start
  clear_value run
  cases hcourse with
  | unconnected p _ hcalls =>
      refine ⟨false, ?_, fun _ hheld => absurd hheld Bool.false_ne_true⟩
      rw [hcalls, runMonitor_singleton]
      refine bracket_of_keeps ?_
      cases r <;> rfl
  | running p _ h _ => exact ⟨_, h.held r, fun hsome => absurd hsome Bool.false_ne_true⟩
  | returned p own _ h _ =>
      refine ⟨_, h.held.closing env r, fun _ hheld => ?_⟩
      cases r with
      | interrupt => exact Or.inl rfl
      | handler signal =>
          rw [Process.leaves, Bool.and_eq_true, Bool.not_eq_true'] at hheld
          refine Or.inr ⟨?_, signal, rfl, hheld.2⟩
          have hfailed : (p.cleanup.restoreSignalHandlers env).failed = true := by
            rw [failed_closing]
            cases signal <;> simp [hheld.1, hheld.2]
          simp only [hfailed, if_true]
      | _ => exact absurd hheld Bool.false_ne_true

end XmonadWayland.Bridge
