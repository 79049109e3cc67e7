import XmonadWayland.System
import XmonadWayland.Base.Objects
import XmonadWayland.Bridge.Stage

/-!
# XmonadWayland.Bridge.Wire

The traffic between compositor and bridge.  A run leaves a log of what the compositor called,
which objects it brought to life by that and what it was asked for; `protocols/` says in which
order requests may come.  Here is what the log is and what a request means to the sequences and
to every window, output and seat.
-/

namespace XmonadWayland.Bridge

/-- A callback, an object it created, a request. -/
inductive Wire where
  | told (cb : Callback)
  | born (cb : Callback) (id : Nat)
  | asked (request : Request)
deriving DecidableEq, Repr

/-- What a step adds to the traffic. -/
def traffic (sys : System) (cb : Callback) : List Wire :=
  .told cb
    :: (((sys.step cb).bridge.issued.drop sys.bridge.issued.length).map (.born cb)
      ++ ((sys.step cb).bridge.requests.drop sys.bridge.requests.length).map .asked)

/-- The traffic of a run. -/
def wire : List Callback → System → List Wire
  | [], _ => []
  | cb :: cbs, sys => traffic sys cb ++ wire cbs (sys.step cb)

/-- The traffic of two runs is one after the other. -/
theorem wire_append (cbs cbs' : List Callback) (sys : System) :
    wire (cbs ++ cbs') sys = wire cbs sys ++ wire cbs' (runSystem cbs sys) := by
  induction cbs generalizing sys with
  | nil => rfl
  | cons cb cbs ih => rw [List.cons_append, wire, wire, ih, List.append_assoc]; rfl

/-- The last callback adds its own traffic. -/
theorem wire_concat (cbs : List Callback) (cb : Callback) (sys : System) :
    wire (cbs ++ [cb]) sys = wire cbs sys ++ traffic (runSystem cbs sys) cb := by
  rw [wire_append, wire, wire, List.append_nil]

/-- What every step keeps of the state of a monitor, a run keeps. -/
theorem runMonitor_wire {σ : Type} {m : σ → Wire → Option σ} {P : System → σ → Prop}
    (hstep : ∀ sys t cb, P sys t →
      ∃ t', runMonitor m t (traffic sys cb) = some t' ∧ P (sys.step cb) t')
    (cbs : List Callback) {sys : System} {t : σ} (h : P sys t) :
    ∃ t', runMonitor m t (wire cbs sys) = some t' ∧ P (runSystem cbs sys) t' := by
  induction cbs generalizing sys t with
  | nil => exact ⟨t, rfl, h⟩
  | cons cb cbs ih =>
      obtain ⟨t', ht', h'⟩ := hstep sys t cb h
      obtain ⟨t'', ht'', h''⟩ := ih h'
      refine ⟨t'', ?_, h''⟩
      rw [wire, runMonitor_append, ht', Option.bind_some, ht'']

/-- The traffic of a step that created nothing. -/
theorem traffic_of_sent {sys : System} {cb : Callback} {sent : List Request}
    (hissued : (sys.step cb).bridge.issued = sys.bridge.issued)
    (hsent : (sys.step cb).bridge.requests = sys.bridge.requests ++ sent) :
    traffic sys cb = .told cb :: sent.map .asked := by
  rw [traffic, hissued, hsent, List.drop_length, List.drop_left]
  rfl

/-! ## Sequences -/

/-- When a request may be made: state of windows changes in a manage sequence only, what is
rendered in either kind of sequence. -/
inductive Scope where
  | management | rendering | anytime | finish (phase : Phase) | stop
deriving DecidableEq, Repr

def Request.scope : Request → Scope
  | .manageFinish => .finish .manage
  | .renderFinish => .finish .render
  | .stop => .stop
  | .hideWindow _ => .rendering
  | .showWindow _ => .rendering
  | .setBorders _ _ _ => .rendering
  | .setPosition _ _ _ => .rendering
  | .placeTop _ => .rendering
  | r => if r.manageOnly then .management else .anytime

/-! ## Objects -/

/-- The objects a record stands for. -/
inductive Kind where
  | window | output | seat
deriving DecidableEq, Repr

/-- The window a request is made of, and what it does with it.  The node is a part of its
window. -/
def Request.windowHandling (i : Nat) : Request → Handling
  | .getNode window => if window = i then .attach else .other
  | .setPosition window _ _ => if window = i then .usePart else .other
  | .placeTop window => if window = i then .usePart else .other
  | .destroyWindow window => if window = i then .destroy else .other
  | .informResizeStart window => if window = i then .use else .other
  | .informResizeEnd window => if window = i then .use else .other
  | .focusWindow _ window => if window = i then .use else .other
  | .close window => if window = i then .use else .other
  | .setCapabilities window => if window = i then .use else .other
  | .useSsd window => if window = i then .use else .other
  | .setTiled window _ => if window = i then .use else .other
  | .proposeDimensions window _ _ => if window = i then .use else .other
  | .fullscreen window _ => if window = i then .use else .other
  | .informFullscreen window => if window = i then .use else .other
  | .exitFullscreen window => if window = i then .use else .other
  | .informNotFullscreen window => if window = i then .use else .other
  | .hideWindow window => if window = i then .use else .other
  | .showWindow window => if window = i then .use else .other
  | .setBorders window _ _ => if window = i then .use else .other
  | _ => .other

/-- The layer-shell state of an output is its part. -/
def Request.outputHandling (i : Nat) : Request → Handling
  | .getLayerOutput output => if output = i then .attach else .other
  | .setDefault output => if output = i then .usePart else .other
  | .destroyOutput output => if output = i then .destroy else .other
  | .fullscreen _ output => if output = i then .use else .other
  | _ => .other

/-- The layer-shell state of a seat is its part; bindings are requested of the seat. -/
def Request.seatHandling (i : Nat) : Request → Handling
  | .getLayerSeat seat => if seat = i then .attach else .other
  | .destroySeat seat => if seat = i then .destroy else .other
  | .opStartPointer seat => if seat = i then .use else .other
  | .opEnd seat => if seat = i then .use else .other
  | .focusWindow seat _ => if seat = i then .use else .other
  | .clearFocus seat => if seat = i then .use else .other
  | .getXkbBinding seat _ _ => if seat = i then .use else .other
  | .enableBinding seat _ => if seat = i then .use else .other
  | .disableBinding seat _ => if seat = i then .use else .other
  | .destroyBinding seat _ => if seat = i then .use else .other
  | .getPointerBinding seat _ => if seat = i then .use else .other
  | .enablePointerBinding seat _ => if seat = i then .use else .other
  | .disablePointerBinding seat _ => if seat = i then .use else .other
  | _ => .other

def Request.handling (kind : Kind) (i : Nat) (r : Request) : Handling :=
  match kind with
  | .window => r.windowHandling i
  | .output => r.outputHandling i
  | .seat => r.seatHandling i

/-- The callback that comes with a new object. -/
def creates (kind : Kind) : Callback → Bool
  | .managerWindow => kind = .window
  | .managerOutput => kind = .output
  | .managerSeat => kind = .seat
  | _ => false

/-- The callback by which the compositor withdraws an object. -/
def withdraws (kind : Kind) (i : Nat) : Callback → Bool
  | .windowClosed window => kind = .window ∧ window = i
  | .outputRemoved output => kind = .output ∧ output = i
  | .seatRemoved seat => kind = .seat ∧ seat = i
  | _ => false

/-- What an entry of the traffic means to the object `i`. -/
def handling (kind : Kind) (i : Nat) : Wire → Handling
  | .told cb => if withdraws kind i cb then .withdrawn else .other
  | .born cb id => if creates kind cb && id = i then .born else .other
  | .asked r => r.handling kind i

/-! ## Records -/

def Window.existence (w : Window) : Existence := ⟨w.node, w.closed⟩

def Output.existence (output : Output) : Existence := ⟨output.layer, output.removed⟩

def Seat.existence (seat : Seat) : Existence := ⟨seat.layer, seat.removed⟩

/-- The objects of a kind as the records have them. -/
def roll (s : State) : Kind → List (Nat × Existence)
  | .window => s.windows.map fun w => (w.id, w.existence)
  | .output => s.outputs.map fun output => (output.id, output.existence)
  | .seat => s.seats.map fun seat => (seat.id, seat.existence)

/-- Requests that the records allow: what they need is there and is not withdrawn. -/
def Request.allowed (s : State) (r : Request) : Prop :=
  ∀ kind i, r.handling kind i = .other
    ∨ ∃ v, (i, v) ∈ roll s kind ∧ (r.handling kind i).keeps v = true

end XmonadWayland.Bridge
