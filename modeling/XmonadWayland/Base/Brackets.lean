import XmonadWayland.Base.Monitor

/-!
# XmonadWayland.Base.Brackets

Resources that are taken and given back.  A monitor accepts the logs in which a resource is
not taken twice and not given back twice, where some events need it held and others need it
free.
-/

namespace XmonadWayland

variable {ε : Type}

/-- What an event has to do with a resource. -/
inductive Hold where
  | take
  | giveBack
  | needs
  | excludes
  | other
deriving DecidableEq, Repr

/-- Accepts the logs in which the resource is taken and given back in turn. -/
def bracket (hold : ε → Hold) (held : Bool) (e : ε) : Option Bool :=
  match hold e with
  | .take => if held then none else some true
  | .giveBack => if held then some false else none
  | .needs => if held then some true else none
  | .excludes => if held then none else some false
  | .other => some held

/-- An event that leaves a resource as it is. -/
def Hold.keeps (held : Bool) : Hold → Bool
  | .needs => held
  | .excludes => !held
  | .other => true
  | _ => false

section Bracket

variable {hold : ε → Hold} {held : Bool} {e : ε} {log : List ε}

/-- Taking is allowed while nothing is held. -/
theorem bracket_take (h : hold e = .take) : bracket hold false e = some true := by
  unfold bracket
  rw [h]
  rfl

/-- Giving back is allowed while something is held. -/
theorem bracket_giveBack (h : hold e = .giveBack) : bracket hold true e = some false := by
  unfold bracket
  rw [h]
  rfl

/-- What leaves the resource alone is always allowed. -/
theorem bracket_of_keeps (h : (hold e).keeps held = true) :
    bracket hold held e = some held := by
  unfold bracket
  cases hrole : hold e <;> simp_all [Hold.keeps]

/-- Events that leave the resource as it is. -/
theorem bracket_log_of_keeps (h : ∀ e ∈ log, (hold e).keeps held = true) :
    runMonitor (bracket hold) held log = some held :=
  runMonitor_of_fixed fun e he => bracket_of_keeps (h e he)

end Bracket

end XmonadWayland
