import XmonadWayland.Base.Program
import XmonadWayland.Nested.Ipc

/-!
# XmonadWayland.Nested.Client

The helper as it talks to Sway: requests, the checks of their replies, and the loop with its
end.  What Sway, the kernel and the signals do is the `Host`: whatever it replies, and when.
All that is said is kept, oldest first, in `said`.
-/

namespace XmonadWayland.Nested

/-! ## Replies -/

/-- What `json.loads` gives; of a number only the integer it is equal to matters. -/
inductive Json where
  | null
  | bool (b : Bool)
  | number (value : Option Int)
  | str (s : String)
  | arr (items : List Json)
  | obj (fields : List (String × Json))

namespace Json

/-- `is True` -/
def isTrue : Option Json → Bool
  | some (.bool b) => b
  | _ => false

/-- `==` between a value and a string. -/
def isString (s : String) : Option Json → Bool
  | some (.str t) => t = s
  | _ => false

/-- `==` between a value and an integer; a truth value is equal to 1 or 0. -/
def isInt (n : Int) : Option Json → Bool
  | some (.number value) => value = some n
  | some (.bool b) => n = if b then 1 else 0
  | _ => false

/-- What `extend` adds to the pending nodes.  An object that cannot be iterated is an error at
once; characters and keys are one when they are popped. -/
def items : Option Json → Option (List Json)
  | none => some []
  | some (.arr items) => some items
  | some (.str s) => if s = "" then some [] else none
  | some (.obj []) => some []
  | _ => none

def isRiver (pid : Int) (fields : List (String × Json)) : Bool :=
  isString "river" (fields.lookup "app_id") && isInt pid (fields.lookup "pid")

/-- `node.get("focused") is True` -/
def isFocused : Json → Bool
  | .obj fields => isTrue (fields.lookup "focused")
  | _ => false

/-- Elements of a list are smaller than the list, all together. -/
theorem sum_sizeOf_le (l : List Json) : (l.map sizeOf).sum ≤ sizeOf l := by
  induction l with
  | nil => exact Nat.zero_le _
  | cons item l ih =>
      rw [List.map_cons, List.sum_cons, List.cons.sizeOf_spec]
      omega

/-- So are the items of a value that can be iterated. -/
theorem sum_items_le {value : Option Json} {l : List Json} (h : items value = some l) :
    (l.map sizeOf).sum ≤ value.elim 0 sizeOf := by
  unfold items at h
  split at h
  · obtain rfl := Option.some.inj h
    exact Nat.zero_le _
  · next listed =>
    obtain rfl := Option.some.inj h
    have hle := sum_sizeOf_le listed
    simp only [Option.elim_some, arr.sizeOf_spec]
    omega
  · split at h
    · obtain rfl := Option.some.inj h
      exact Nat.zero_le _
    · contradiction
  · obtain rfl := Option.some.inj h
    exact Nat.zero_le _
  · contradiction

/-- A field is smaller than its object. -/
theorem sizeOf_lookup (key : String) (fields : List (String × Json)) :
    (fields.lookup key).elim 0 sizeOf ≤ sizeOf fields := by
  induction fields with
  | nil => exact Nat.zero_le _
  | cons field fields ih =>
      obtain ⟨name, value⟩ := field
      rw [List.lookup_cons, List.cons.sizeOf_spec, Prod.mk.sizeOf_spec]
      split
      · simp only [Option.elim_some]
        omega
      · omega

/-- Two different fields are smaller than their object, both together. -/
theorem sizeOf_lookups {key key' : String} (h : key ≠ key') (fields : List (String × Json)) :
    (fields.lookup key).elim 0 sizeOf + (fields.lookup key').elim 0 sizeOf ≤ sizeOf fields := by
  induction fields with
  | nil => exact Nat.zero_le _
  | cons field fields ih =>
      obtain ⟨name, value⟩ := field
      have hkey := sizeOf_lookup key fields
      have hkey' := sizeOf_lookup key' fields
      rw [List.lookup_cons, List.lookup_cons, List.cons.sizeOf_spec, Prod.mk.sizeOf_spec]
      split
      · next hname =>
        have hother : (key' == name) = false := by
          rw [beq_eq_false_iff_ne, ← beq_iff_eq.mp hname]
          exact h.symm
        rw [hother]
        simp only [Option.elim_some] at hkey' ⊢
        omega
      · split
        · simp only [Option.elim_some] at hkey ⊢
          omega
        · omega

/-- The loop of `river_windows`; the head of `pending` is popped. -/
def riverWindowsFrom (pid : Int) (pending found : List Json) : Except Error (List Json) :=
  match pending with
  | [] => .ok found
  | .obj fields :: pending =>
    match _hnodes : items (fields.lookup "nodes") with
    | none => .error .uncaught
    | some nodes =>
      match _hfloating : items (fields.lookup "floating_nodes") with
      | none => .error .uncaught
      | some floatingNodes =>
        riverWindowsFrom pid (floatingNodes.reverse ++ (nodes.reverse ++ pending))
          (if isRiver pid fields then found ++ [.obj fields] else found)
  | _ :: _ => .error .uncaught
termination_by (pending.map sizeOf).sum
decreasing_by
  have hsum := sum_items_le _hnodes
  have hsum' := sum_items_le _hfloating
  have hboth := sizeOf_lookups (by decide : "nodes" ≠ "floating_nodes") fields
  simp only [List.map_append, List.map_reverse, List.sum_append, List.sum_reverse, List.map_cons,
    List.sum_cons, obj.sizeOf_spec]
  omega

/-- `river_windows` -/
def riverWindows (tree : Json) (pid : Int) : Except Error (List Json) :=
  match tree with
  | .obj fields => riverWindowsFrom pid [.obj fields] []
  | _ => .error (.ipc "Sway did not report a tree object")

/-- The reply to a command: a list that is not empty, of successes. -/
def accepts : Json → Bool
  | .arr items => !items.isEmpty && items.all fun item =>
      match item with
      | .obj fields => isTrue (fields.lookup "success")
      | _ => false
  | _ => false

/-- The name in the reply about the mode. -/
def modeName : Json → Option String
  | .obj fields => match fields.lookup "name" with
    | some (.str name) => some name
    | _ => none
  | _ => none

end Json

/-! ## The helper and its host -/

/-- A request, and what came of it. -/
structure Exchange where
  kind : Nat
  payload : String
  reply : Except Error Json

/-- What is outside of the helper: the reply to a message that is sent or the error of the
connection, whether River's process exists, and whether a signal has arrived. -/
structure Host (σ : Type) where
  send : Nat → String → σ → Except Error (Nat × Json) × σ
  processExists : Int → σ → Bool × σ
  signalled : σ → Bool × σ

structure Session (σ : Type) where
  host : σ
  helper : NestedInput
  said : List Exchange := []

abbrev Client (σ : Type) (α : Type) : Type := Program (Session σ) Error α

namespace Client

variable {σ : Type} (host : Host σ)

def answered (kind : Nat) : Except Error (Nat × Json) → Except Error Json
  | .error e => .error e
  | .ok (replyKind, reply) =>
    if replyKind ≠ kind then .error (.ipc "unexpected Sway IPC reply") else .ok reply

/-- `IPC.request` -/
def request (kind : Nat) (payload : String) : Client σ Json := fun s =>
  let sent := host.send kind payload s.host
  let reply := answered kind sent.1
  (reply, { s with host := sent.2, said := s.said ++ [⟨kind, payload, reply⟩] })

/-- `IPC.command` -/
def command (text : String) : Client σ Unit := do
  let result ← request host 0 text
  if result.accepts then pure ()
  else throw (.ipc "Sway rejected the temporary input mode command")

/-- `IPC.mode` -/
def mode : Client σ String := do
  let result ← request host 12 ""
  match result.modeName with
  | some name => pure name
  | none => throw (.ipc "Sway did not report its current binding mode")

/-- The helper's own state. -/
def update (f : NestedInput → NestedInput) : Client σ Unit :=
  modify fun s => { s with helper := f s.helper }

/-- Read `stopping`. -/
def stopping : Client σ Bool := fun s =>
  let signal := host.signalled s.host
  let helper := if signal.1 then s.helper.stop else s.helper
  (.ok helper.stopping, { s with host := signal.2, helper := helper })

def processExists : Client σ Bool := fun s =>
  let answer := host.processExists s.helper.pid s.host
  (.ok answer.1, { s with host := answer.2 })

/-- River's windows in the tree Sway reports. -/
def windows : Client σ (List Json) := do
  let tree ← request host 4 ""
  let s ← get
  match tree.riverWindows s.helper.pid with
  | .ok found => pure found
  | .error e => throw e

def defining (name : String) : String :=
  "mode \"" ++ name ++ "\" bindsym Ctrl+Alt+Escape mode \"default\""

def selecting (name : String) : String := "mode \"" ++ name ++ "\""

/-- `NestedInput.restore` -/
def restore : Client σ Unit := do
  let s ← get
  if s.helper.defined then
    let current ← mode host
    if current = s.helper.name then command host (selecting "default") else pure ()
  else pure ()
  update fun h => { h with owned := false }

def enter : Client σ Bool := do
  update fun h => { h with owned := true }
  let s ← get
  command host (selecting s.helper.name)
  pure true

/-- The last look. -/
def recheck : Client σ Bool := do
  let found ← windows host
  -- one condition after the other: the mode is asked for only with River focused
  if (← stopping host) then pure true
  else if !(← processExists host) then pure true
  else if !found.any Json.isFocused then pure true
  else if (← mode host) ≠ "default" then pure true
  else enter host

/-- Define the mode with its escape, if it is not. -/
def capture : Client σ Bool := do
  let s ← get
  if s.helper.defined then recheck host
  else
    command host (defining s.helper.name)
    update fun h => { h with defined := true }
    recheck host

def unfocused (current : String) : Client σ Bool := do
  update fun h => { h with blocked := false }
  let s ← get
  if current = s.helper.name then restore host else pure ()
  update fun h => { h with owned := false }
  pure true

/-- What the mode that is selected says about the helper's. -/
def noticing (current : String) (h : NestedInput) : NestedInput :=
  let h := if h.owned ∧ current ≠ h.name then { h with owned := false, blocked := true } else h
  if current ∉ ["default", h.name] then { h with blocked := true } else h

def focused (current : String) : Client σ Bool := do
  update (noticing current)
  let s ← get
  if current ≠ "default" then pure true
  else if s.helper.blocked then pure true
  else if (← stopping host) then pure true
  else capture host

/-- `NestedInput.reconcile` -/
def reconcile : Client σ Bool := do
  if (← stopping host) then pure false
  else if !(← processExists host) then pure false
  else
    let found ← windows host
    let s ← get
    if s.helper.seen && found.isEmpty then pure false
    else
      update fun h => { h with seen := h.seen || !found.isEmpty }
      let current ← mode host
      if !found.any Json.isFocused then unfocused host current else focused host current

/-! ## The loop -/

/-- `NestedInput.event`; what has no `get` is an error. -/
def event (kind : Nat) (fields : List (String × Json)) : Client σ Unit :=
  if kind = 0x80000003 ∧ Json.isString "focus" (fields.lookup "change") then
    match (fields.lookup "container").getD (.obj []) with
    | .obj node => update fun h =>
        if Json.isRiver h.pid node && Json.isTrue (node.lookup "focused") then h
        else { h with blocked := false }
    | _ => throw .uncaught
  else pure ()

/-- A message was read on the connection for events. -/
def heard (message : Except Error (Nat × Json)) (more : Client σ Unit) : Client σ Unit :=
  match message with
  | .error e => throw e
  | .ok (kind, payload) =>
    if kind = 0x80000006 then pure ()
    else
      match payload with
      | .obj fields => do
        event kind fields
        more
      | _ => throw (.ipc "invalid Sway IPC event")

/-- The loop; what each wait gives is scripted, `none` for a timeout.  After the script Sway shuts
down. -/
def loop : List (Option (Except Error (Nat × Json))) → Client σ Unit
  | [] => do
    let _ ← reconcile host
    pure ()
  | wait :: waits => do
    if (← reconcile host) then
      match wait with
      | none => loop waits
      | some message => heard message (loop waits)
    else pure ()

/-- The loop and its end, on every path; the result of the process. -/
def attend (waits : List (Option (Except Error (Nat × Json)))) : Client σ Nat := do
  let looped ← (loop host waits).attempt
  let restored ← (restore host).attempt
  if looped = .error .uncaught ∨ restored = .error .uncaught then throw .uncaught
  else if looped = .ok () ∧ restored = .ok () then pure 0
  else pure 1

/-- `run`, when both connections are open; `reply` is what came of the subscription. -/
def run (reply : Except Error (Nat × Json)) (waits : List (Option (Except Error (Nat × Json)))) :
    Client σ Nat :=
  match answered 2 reply with
  | .ok (.obj fields) =>
    if Json.isTrue (fields.lookup "success") then attend host waits else pure 1
  | .ok _ => pure 1
  | .error e => if e = .uncaught then throw e else pure 1

end Client

end XmonadWayland.Nested
