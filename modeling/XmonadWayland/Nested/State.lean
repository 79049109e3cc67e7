import Mathlib.Algebra.Order.Ring.Nat
import Mathlib.Data.List.Basic

/-!
# XmonadWayland.Nested.State

The helper that passes Sway's shortcuts to a nested River: what it reads from Sway, the
commands it sends and its own four flags.  A command that Sway rejects raises an error,
which ends the helper.
-/

namespace XmonadWayland.Nested

/-! ## Sway -/

/-- A node of Sway's tree. -/
structure Node where
  appId : Option String
  pid : Option Int
  focused : Bool
  nodes : List Node
  floatingNodes : List Node
deriving Repr

/-- An event without a container is read as one with an empty container. -/
def Node.blank : Node := ⟨none, none, false, [], []⟩

/-- Elements of a list are smaller than the list, all together. -/
theorem sum_sizeOf_le (l : List Node) : (l.map sizeOf).sum ≤ sizeOf l := by
  induction l with
  | nil => exact Nat.zero_le _
  | cons node l ih =>
      rw [List.map_cons, List.sum_cons, List.cons.sizeOf_spec]
      omega

/-- The children of a node are smaller than the node, all together. -/
theorem sizeOf_children (node : Node) :
    (node.floatingNodes.map sizeOf).sum + (node.nodes.map sizeOf).sum < sizeOf node := by
  have hnodes := sum_sizeOf_le node.nodes
  have hfloating := sum_sizeOf_le node.floatingNodes
  cases node
  simp only [Node.mk.sizeOf_spec] at hnodes hfloating ⊢
  omega

def Node.isRiver (pid : Int) (node : Node) : Bool :=
  node.appId = some "river" ∧ node.pid = some pid

/-- The nodes of River among those pending and below; the head of `pending` is popped. -/
def riverWindowsFrom (pid : Int) (pending found : List Node) : List Node :=
  match pending with
  | [] => found
  | node :: pending =>
    riverWindowsFrom pid (node.floatingNodes.reverse ++ (node.nodes.reverse ++ pending))
      (if node.isRiver pid then found ++ [node] else found)
  termination_by (pending.map sizeOf).sum
  decreasing_by
    have hlt := sizeOf_children node
    simp only [List.unattach_reverse, List.unattach_attach, List.map_append, List.map_reverse,
      List.sum_append, List.sum_reverse, List.map_cons, List.sum_cons]
    omega

def riverWindows (tree : Node) (pid : Int) : List Node := riverWindowsFrom pid [tree] []

/-- An event sent to the subscriber. -/
structure SwayEvent where
  kind : Nat
  change : Option String
  container : Option Node
deriving Repr

/-- What the helper sees of Sway, and all events sent to it, oldest first. -/
structure Sway where
  tree : Node
  mode : String
  modes : List String
  events : List SwayEvent
deriving Repr

/-- `mode` commands: define a mode with the escape binding, or select a mode. -/
inductive Command where
  | define (name : String)
  | select (name : String)

/-- Selecting a mode sends an event; modes that are not defined are rejected. -/
def Sway.command (s : Sway) : Command → Option Sway
  | .define name => some { s with modes := name :: s.modes }
  | .select name =>
    if name ∈ s.modes then
      some { s with mode := name, events := s.events ++ [⟨0x80000002, some name, none⟩] }
    else none

/-! ## The helper -/

structure NestedInput where
  pid : Int
  name : String
  defined : Bool
  owned : Bool
  blocked : Bool
  seen : Bool
  stopping : Bool
deriving Repr

/-- The name of the helper's mode; the token is random. -/
def modeName (pid self : Int) (token : String) : String :=
  "river-nested-" ++ toString pid ++ "-" ++ toString self ++ "-" ++ token

/-- The helper at its start. -/
def NestedInput.init (pid self : Int) (token : String) : NestedInput where
  pid := pid
  name := modeName pid self token
  defined := false
  owned := false
  blocked := false
  seen := false
  stopping := false

namespace NestedInput

def stop (h : NestedInput) : NestedInput := { h with stopping := true }

/-- A user selecting a different mode always wins. -/
def restore (h : NestedInput) (s : Sway) : Option (NestedInput × Sway) :=
  if h.defined ∧ s.mode = h.name then
    (s.command (.select "default")).map fun s' => ({ h with owned := false }, s')
  else some ({ h with owned := false }, s)

/-- The event reports that something else than River's window has the focus. -/
def departs (pid : Int) (e : SwayEvent) : Bool :=
  e.kind = 0x80000003 ∧ e.change = some "focus"
    ∧ (let node := e.container.getD .blank
       node.appId ≠ some "river" ∨ node.pid ≠ some pid ∨ node.focused ≠ true)

def event (h : NestedInput) (e : SwayEvent) : NestedInput :=
  if departs h.pid e then { h with blocked := false } else h

/-- What a reconcile leaves; no result when an error was raised. -/
structure Reconciled where
  result : Option Bool
  helper : NestedInput
  sway : Sway

/-- Without the focus `reconcile` gives the mode back. -/
def release (h : NestedInput) (s : Sway) : Reconciled :=
  match h.restore s with
  | none => ⟨none, h, s⟩
  | some (h, s) => ⟨some true, { h with owned := false }, s⟩

/-- The last step of `reconcile`. -/
def enter (h : NestedInput) (s : Sway) : Reconciled :=
  let h := { h with owned := true }
  match s.command (.select h.name) with
  | none => ⟨none, h, s⟩
  | some s => ⟨some true, h, s⟩

/-- Before it `reconcile` looks again. -/
def recheck (processExists : Bool) (h : NestedInput) (s : Sway) : Reconciled :=
  let windows := riverWindows s.tree h.pid
  if h.stopping ∨ ¬processExists ∨ ¬windows.any Node.focused ∨ s.mode ≠ "default" then
    ⟨some true, h, s⟩
  else enter h s

/-- The second half of `reconcile`: define the mode, look again, enter the mode. -/
def capture (processExists : Bool) (h : NestedInput) (s : Sway) : Reconciled :=
  if ¬h.defined then
    match s.command (.define h.name) with
    | none => ⟨none, h, s⟩
    | some s => recheck processExists { h with defined := true } s
  else recheck processExists h s

def reconcile (processExists : Bool) (h : NestedInput) (s : Sway) : Reconciled :=
  if h.stopping ∨ ¬processExists then ⟨some false, h, s⟩
  else
    let windows := riverWindows s.tree h.pid
    if h.seen ∧ windows.isEmpty then ⟨some false, h, s⟩
    else
      let h := { h with seen := h.seen ∨ ¬windows.isEmpty }
      let focused := windows.any Node.focused
      let current := s.mode
      if ¬focused then
        let h := { h with blocked := false }
        if current = h.name then h.release s
        else ⟨some true, { h with owned := false }, s⟩
      else
        let h := if h.owned ∧ current ≠ h.name then { h with owned := false, blocked := true } else h
        let h := if current ∉ ["default", h.name] then { h with blocked := true } else h
        if current ≠ "default" ∨ h.blocked ∨ h.stopping then ⟨some true, h, s⟩
        else capture processExists h s

end NestedInput

end XmonadWayland.Nested
