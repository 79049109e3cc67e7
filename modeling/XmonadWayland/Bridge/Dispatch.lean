import XmonadWayland.Bridge.Bindings

/-!
# XmonadWayland.Bridge.Dispatch

From a key pressed to the action run.  A key waits in the queue between two manage
sequences, and the configuration only changes after the queue is empty; so the entry
that a delivered key means is the one its binding was created for.
-/

namespace XmonadWayland.Bridge

/-! ## The queue of keys -/

/-- An event of the queue is told when it is drained. -/
def Drained (sys : System) (events : List Input) (d : Delivered) : Prop :=
  ∃ earlier event later seat, events = earlier ++ event :: later
    ∧ admits event (earlier.foldl drainEvent sys).bridge = some seat
    ∧ (drainEvent (earlier.foldl drainEvent sys) event).runtime
      = (earlier.foldl drainEvent sys).runtime.deliver d
    ∧ ∃ a b x y, d = .event event.kind.code event.id a b x y

/-- What was drained of a queue was drained of a longer one. -/
theorem Drained.append {sys : System} {events : List Input} {d : Delivered}
    (h : Drained sys events d) (event : Input) : Drained sys (events ++ [event]) d := by
  obtain ⟨earlier, event', later, seat, heq, hrest⟩ := h
  exact ⟨earlier, event', later ++ [event], seat,
    by rw [heq, List.append_assoc, List.cons_append], hrest⟩

/-- A bound seat has a binding for every entry. -/
theorem Bound.created {cfg : Config} {s : State} (h : Bound cfg s) (heq : Equipped s) {seat : Seat}
    (hsome : primarySeat s = some seat) {index : Nat} {entry : KeyBinding}
    (hentry : (keyTable cfg)[index]? = some entry) :
    ∃ binding ∈ seat.bindings, binding.created = registration entry index := by
  obtain ⟨-, hmem⟩ := primarySeat_some hsome
  have hbindings := (h.configured seat hmem (heq seat hsome)).2
  have hregistered : registration entry index ∈ (registrations cfg).reverse :=
    List.mem_reverse.mpr (mem_registrations.mpr ⟨entry, hentry, rfl⟩)
  rw [← hbindings] at hregistered
  exact List.mem_map.mp hregistered

end XmonadWayland.Bridge

namespace XmonadWayland

open Bridge

end XmonadWayland
