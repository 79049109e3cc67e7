import XmonadWayland.Base.Runs
import XmonadWayland.Nested.State

/-!
# XmonadWayland.Nested.World

The helper's loop beside Sway and its user.  Events wait in the order in which they were
sent until the helper receives them; a wait may also end without one, however many are
there.  In a reconcile all queries and commands see one state of Sway.
-/

namespace XmonadWayland.Nested

/-- Where the helper's loop is. -/
inductive Phase where
  | reconciles
  | waits
  | ended
  deriving DecidableEq, Repr

structure World where
  sway : Sway
  riverExists : Bool
  received : Nat
  helper : NestedInput
  phase : Phase
deriving Repr

/-- River's window has the focus. -/
def World.riverFocused (w : World) : Bool :=
  (riverWindows w.sway.tree w.helper.pid).any Node.focused

/-- The end of the loop, on every path. -/
def World.finish (w : World) : World :=
  match w.helper.restore w.sway with
  | some (h, s) => { w with helper := h, sway := s, phase := .ended }
  | none => { w with phase := .ended }

/-- The user's steps and the helper's. -/
inductive Move where
  | focus (tree : Node) (event : Option SwayEvent)
  | mode (name : String)
  | riverExits
  | signal
  | reconcile
  | timeout
  | receive

def Move.byHelper : Move → Bool
  | .reconcile | .timeout | .receive => true
  | _ => false

/-- A move of the user or of the helper, if it is possible.  Sway tells the truth: an event
that something else has the focus is sent when River's window has not. -/
def act (w : World) : Move → Option World
  | .focus tree event =>
    let next := { w with
      sway := { w.sway with tree := tree, events := w.sway.events ++ event.toList } }
    if event.any (NestedInput.departs w.helper.pid) ∧ next.riverFocused then none else some next
  | .mode name => (w.sway.command (.select name)).map fun s => { w with sway := s }
  | .riverExits => some { w with riverExists := false }
  | .signal => some { w with helper := w.helper.stop }
  | .reconcile =>
    if w.phase = .reconciles then
      let r := w.helper.reconcile w.riverExists w.sway
      let next := { w with helper := r.helper, sway := r.sway }
      if r.result = some true then some { next with phase := .waits } else some next.finish
    else none
  | .timeout => if w.phase = .waits then some { w with phase := .reconciles } else none
  | .receive =>
    if w.phase = .waits then
      w.sway.events[w.received]?.map fun e =>
        let next := { w with received := w.received + 1 }
        if e.kind = 0x80000006 then next.finish
        else { next with helper := w.helper.event e, phase := .reconciles }
    else none

/-- The helper starts: it has subscribed, its mode has a name that is not in use. -/
structure Initial (w : World) : Prop where
  helper : ∃ pid self token, w.helper = NestedInput.init pid self token
  phase : w.phase = .reconciles
  received : w.received = 0
  events : w.sway.events = []
  fresh : w.helper.name ∉ w.sway.modes
  other : w.sway.mode ≠ w.helper.name

abbrev runMoves (w : World) (moves : List Move) : Option World := runMonitor act w moves

end XmonadWayland.Nested
