import XmonadWayland.Bridge.Wire

/-!
# XmonadWayland.Bridge.View

What the compositor knows of one window, from the traffic alone.  It handles the position and
the dimensions of a fullscreen window.  When the window stops being fullscreen, by a request or
because its output is removed, both are undefined until a manage sequence that sets them is
finished.  New windows are shown until they are hidden.
-/

namespace XmonadWayland.Bridge

/-- The compositor's side of a window; `proposed` and `positioned` are about the sequence that
runs. -/
structure View where
  tiled : Nat := 0
  output : Option Nat := none
  informed : Bool := false
  dimensions : Option (Int × Int) := none
  position : Option (Int × Int) := none
  undefined : Bool := false
  proposed : Bool := false
  positioned : Bool := false
  hidden : Bool := false
  borders : Option (Bool × Int) := none
deriving DecidableEq, Repr

/-- The window is not fullscreen any more. -/
def View.leave (v : View) : View :=
  { v with output := none, undefined := true, proposed := false, positioned := false }

/-- A request, seen by window `i`. -/
def View.ask (i : Nat) (v : View) : Request → View
  | .setTiled window edges => if window = i then { v with tiled := edges } else v
  | .proposeDimensions window width height =>
    if window = i then { v with dimensions := some (width, height), proposed := true } else v
  | .setPosition window x y =>
    if window = i then { v with position := some (x, y), positioned := true } else v
  | .fullscreen window output => if window = i then { v with output := some output } else v
  | .informFullscreen window => if window = i then { v with informed := true } else v
  | .exitFullscreen window => if window = i then v.leave else v
  | .informNotFullscreen window => if window = i then { v with informed := false } else v
  | .hideWindow window => if window = i then { v with hidden := true } else v
  | .showWindow window => if window = i then { v with hidden := false } else v
  | .setBorders window focused width =>
    if window = i then { v with borders := some (focused, width) } else v
  | .manageFinish => { v with undefined := v.undefined && !(v.proposed && v.positioned) }
  | _ => v

/-- A callback, seen by window `i`. -/
def View.tell (v : View) : Callback → View
  | .outputRemoved output => if v.output = some output then v.leave else v
  | .managerManageStart => { v with proposed := false, positioned := false }
  | _ => v

/-- An entry of the traffic, seen by window `i`. -/
def View.hear (i : Nat) (v : View) : Wire → View
  | .told cb => v.tell cb
  | .born _ _ => v
  | .asked r => v.ask i r

/-- What the traffic makes known of window `i`. -/
def view (i : Nat) (log : List Wire) : View := log.foldl (View.hear i) {}

/-- The view of two logs is read one after the other. -/
theorem view_append (i : Nat) (log log' : List Wire) :
    view i (log ++ log') = log'.foldl (View.hear i) (view i log) := List.foldl_append

/-- What every step keeps of what is known of a window, a run keeps. -/
theorem foldl_wire {σ : Type} {f : σ → Wire → σ} {P : System → σ → Prop}
    (hstep : ∀ sys t cb, P sys t → P (sys.step cb) ((traffic sys cb).foldl f t))
    (cbs : List Callback) {sys : System} {t : σ} (h : P sys t) :
    P (runSystem cbs sys) ((wire cbs sys).foldl f t) := by
  induction cbs generalizing sys t with
  | nil => exact h
  | cons cb cbs ih =>
      rw [wire, List.foldl_append]
      exact ih (hstep sys t cb h)

/-! ## What does not matter to a window -/

/-- Requests that change what is known of a window. -/
def Request.displays : Request → Bool
  | .setTiled _ _ => true
  | .proposeDimensions _ _ _ => true
  | .setPosition _ _ _ => true
  | .fullscreen _ _ => true
  | .informFullscreen _ => true
  | .exitFullscreen _ => true
  | .informNotFullscreen _ => true
  | .hideWindow _ => true
  | .showWindow _ => true
  | .setBorders _ _ _ => true
  | .manageFinish => true
  | _ => false

section Ask

variable {i : Nat} {v : View}

/-- A request that displays nothing leaves the view. -/
theorem ask_of_not_displays {r : Request} (h : r.displays = false) : v.ask i r = v := by
  cases r <;> first | rfl | contradiction

/-- Hearing requests is asking them of the view. -/
theorem foldl_hear_asked (requests : List Request) (v : View) :
    (requests.map .asked).foldl (View.hear i) v = requests.foldl (View.ask i) v := List.foldl_map

/-- A step that created nothing. -/
theorem foldl_traffic {sys : System} {cb : Callback} {sent : List Request}
    (hissued : (sys.step cb).bridge.issued = sys.bridge.issued)
    (hsent : (sys.step cb).bridge.requests = sys.bridge.requests ++ sent) (v : View) :
    (traffic sys cb).foldl (View.hear i) v = sent.foldl (View.ask i) (v.tell cb) := by
  rw [traffic_of_sent hissued hsent, List.foldl_cons, foldl_hear_asked]
  rfl

end Ask

end XmonadWayland.Bridge
