import XmonadWayland.System
import XmonadWayland.Base.Monitor
import XmonadWayland.Policy.Population

/-!
# XmonadWayland.Bridge.Mirror

The policy mirrors what it was told.  The events about a window or an output move it
through a life (`windowRole`, `outputRole`); whatever is delivered, the managed windows
are those alive in the log and the outputs have the geometry last published.
-/

namespace XmonadWayland.Bridge

/-! ## Roles -/

/-- The kinds of events about a managed window. -/
def windowUses : List Int := [5, 11, 12, 13, 21, 25]

def windowRole (w : Nat) : Delivered → Role Unit
  | .event kind ident _ _ _ _ =>
    if ident ≠ w then .other
    else if kind = 3 then .opens ()
    else if kind = 4 then .closes
    else if kind ∈ windowUses then .uses
    else .other
  | .windowString kind ident _ =>
    if ident = w ∧ (kind = 26 ∨ kind = 27) then .uses else .other

def outputRole (o : Nat) : Delivered → Role Rect
  | .event kind ident a b c d =>
    if ident ≠ o then .other
    else if kind = 1 then .sets ⟨a, b, c, d⟩
    else if kind = 2 then .closes
    else if kind = 14 then .uses
    else .other
  | .windowString _ _ _ => .other

/-! ## Decoding -/

/-- Births and deaths are decoded from an event of their own kind. -/
theorem decode_lifecycle {rt : Runtime} {d : Delivered} {ev : Event} (h : rt.decode d = some ev)
    (hev : ev.isLifecycle = true) :
    ∃ kind ident a b c e, d = .event kind ident a b c e
      ∧ decodeEvent kind ident a b c e = some ev := by
  rcases decode_cases h with ⟨action, rfl⟩ | hevent | ⟨ident, text, rfl | rfl⟩
  · contradiction
  · exact hevent
  · contradiction
  · contradiction

/-- Only event 3 is decoded as a new window. -/
theorem decode_windowAdded {rt : Runtime} {d : Delivered} {wid : WindowId}
    (h : rt.decode d = some (.windowAdded wid)) : ∃ a b c e, d = .event 3 wid a b c e := by
  obtain ⟨kind, ident, a, b, c, e, rfl, hd⟩ := decode_lifecycle h rfl
  unfold decodeEvent at hd
  split at hd <;> grind [Option.map_eq_some_iff]

/-- Only event 4 is decoded as a window that closed. -/
theorem decode_windowRemoved {rt : Runtime} {d : Delivered} {wid : WindowId}
    (h : rt.decode d = some (.windowRemoved wid)) : ∃ a b c e, d = .event 4 wid a b c e := by
  obtain ⟨kind, ident, a, b, c, e, rfl, hd⟩ := decode_lifecycle h rfl
  unfold decodeEvent at hd
  split at hd <;> grind [Option.map_eq_some_iff]

/-- Only event 1 is decoded as an output's rectangle. -/
theorem decode_outputUpsert {rt : Runtime} {d : Delivered} {oid : OutputId} {rect : Rect}
    (h : rt.decode d = some (.outputUpsert oid rect)) : ∃ a b c e, d = .event 1 oid a b c e := by
  obtain ⟨kind, ident, a, b, c, e, rfl, hd⟩ := decode_lifecycle h rfl
  unfold decodeEvent at hd
  split at hd <;> grind [Option.map_eq_some_iff]

/-- Only event 2 is decoded as an output that left. -/
theorem decode_outputRemoved {rt : Runtime} {d : Delivered} {oid : OutputId}
    (h : rt.decode d = some (.outputRemoved oid)) : ∃ a b c e, d = .event 2 oid a b c e := by
  obtain ⟨kind, ident, a, b, c, e, rfl, hd⟩ := decode_lifecycle h rfl
  unfold decodeEvent at hd
  split at hd <;> grind [Option.map_eq_some_iff]

/-- An event is a birth, a death, or does not decide whether the window is managed. -/
theorem windowRole_cases (w : Nat) (d : Delivered) :
    (∃ a b c e, d = .event 3 w a b c e ∧ windowRole w d = .opens ())
      ∨ (∃ a b c e, d = .event 4 w a b c e ∧ windowRole w d = .closes)
      ∨ (windowRole w d = .uses ∨ windowRole w d = .other)
        ∧ ∀ (rt : Runtime) (ev : Event), rt.decode d = some ev →
          ev ≠ .windowAdded w ∧ ev ≠ .windowRemoved w := by
  by_cases hopen : ∃ a b c e, d = .event 3 w a b c e
  · obtain ⟨a, b, c, e, rfl⟩ := hopen
    exact Or.inl ⟨a, b, c, e, rfl, by simp [windowRole]⟩
  · by_cases hclose : ∃ a b c e, d = .event 4 w a b c e
    · obtain ⟨a, b, c, e, rfl⟩ := hclose
      exact Or.inr (Or.inl ⟨a, b, c, e, rfl, by simp [windowRole]⟩)
    · refine Or.inr (Or.inr ⟨?_, fun rt ev hev => ⟨?_, ?_⟩⟩)
      · cases d with
        | event kind ident a b c e =>
            have h3 : ¬(ident = w ∧ kind = 3) := fun h => hopen ⟨a, b, c, e, by rw [h.1, h.2]⟩
            have h4 : ¬(ident = w ∧ kind = 4) := fun h => hclose ⟨a, b, c, e, by rw [h.1, h.2]⟩
            unfold windowRole
            grind
        | windowString kind ident text => exact ite_eq_or_eq _ _ _
      · rintro rfl
        exact hopen (decode_windowAdded hev)
      · rintro rfl
        exact hclose (decode_windowRemoved hev)

/-- What an event may say about an output. -/
theorem outputRole_cases (o : Nat) (d : Delivered) :
    (∃ a b c e, d = .event 1 o a b c e ∧ outputRole o d = .sets ⟨a, b, c, e⟩)
      ∨ (∃ a b c e, d = .event 2 o a b c e ∧ outputRole o d = .closes)
      ∨ (outputRole o d = .uses ∨ outputRole o d = .other)
        ∧ ∀ (rt : Runtime) (ev : Event), rt.decode d = some ev →
          (∀ rect, ev ≠ .outputUpsert o rect) ∧ ev ≠ .outputRemoved o := by
  by_cases hset : ∃ a b c e, d = .event 1 o a b c e
  · obtain ⟨a, b, c, e, rfl⟩ := hset
    exact Or.inl ⟨a, b, c, e, rfl, by simp [outputRole]⟩
  · by_cases hclose : ∃ a b c e, d = .event 2 o a b c e
    · obtain ⟨a, b, c, e, rfl⟩ := hclose
      exact Or.inr (Or.inl ⟨a, b, c, e, rfl, by simp [outputRole]⟩)
    · refine Or.inr (Or.inr ⟨?_, fun rt ev hev => ⟨?_, ?_⟩⟩)
      · cases d with
        | event kind ident a b c e =>
            have h1 : ¬(ident = o ∧ kind = 1) := fun h => hset ⟨a, b, c, e, by rw [h.1, h.2]⟩
            have h2 : ¬(ident = o ∧ kind = 2) := fun h => hclose ⟨a, b, c, e, by rw [h.1, h.2]⟩
            unfold outputRole
            grind
        | windowString kind ident text => exact Or.inr rfl
      · rintro rect rfl
        exact hset (decode_outputUpsert hev)
      · rintro rfl
        exact hclose (decode_outputRemoved hev)

/-! ## The mirror -/

/-- Windows are managed while they are alive in the log, outputs have the geometry they
were last given there. -/
structure Mirror (rt : Runtime) : Prop where
  reachable : Reachable rt.runtimeConfig rt.runtimePolicy
  windows : ∀ (w : Nat) (life : Lifespan Unit),
    runMonitor (live (windowRole w)) .unborn rt.delivered = some life →
      (w ∈ rt.runtimePolicy.windowSet.windows ↔ w ≠ 0 ∧ life = .alive ())
  outputs : ∀ (o : Nat) (life : Lifespan Rect),
    runMonitor (live (outputRole o)) .unborn rt.delivered = some life →
      rt.runtimePolicy.outputs[o]? = life.value.map positive

/-- An event keeps policy and log agreed on a window. -/
theorem managed_deliver {rt : Runtime} (hr : Reachable rt.runtimeConfig rt.runtimePolicy)
    {d : Delivered} {w : Nat} {life life' : Lifespan Unit}
    (hstep : live (windowRole w) life d = some life')
    (h : w ∈ rt.runtimePolicy.windowSet.windows ↔ w ≠ 0 ∧ life = .alive ()) :
    w ∈ (rt.deliver d).runtimePolicy.windowSet.windows ↔ w ≠ 0 ∧ life' = .alive () := by
  rcases windowRole_cases w d with ⟨a, b, c, e, rfl, hrole⟩ | ⟨a, b, c, e, rfl, hrole⟩ | ⟨hrole, hev⟩
  · obtain ⟨rfl, rfl⟩ := (live_of_opens hrole).mp hstep
    have hp : (rt.deliver (.event 3 w a b c e)).runtimePolicy
        = step rt.runtimeConfig rt.runtimePolicy (.windowAdded w) := rfl
    rw [hp, mem_windows_step hr, Event.manages, h]
    simp
  · obtain ⟨⟨-, rfl⟩, rfl⟩ := (live_of_closes hrole).mp hstep
    have hp : (rt.deliver (.event 4 w a b c e)).runtimePolicy
        = step rt.runtimeConfig rt.runtimePolicy (.windowRemoved w) := rfl
    rw [hp, mem_windows_step hr, Event.manages]
    simp
  · rw [eq_of_live hrole hstep, ← h]
    rcases (deliver_cases rt d).2.2 with ⟨-, hp⟩ | ⟨ev, hdecode, hp⟩ <;> rw [hp]
    obtain ⟨hadd, hremove⟩ := hev rt ev hdecode
    rw [mem_windows_step hr, manages_of_ne hadd hremove]

/-- An event keeps policy and log agreed on an output. -/
theorem placed_deliver {rt : Runtime} (hr : Reachable rt.runtimeConfig rt.runtimePolicy)
    {d : Delivered} {o : Nat} {life life' : Lifespan Rect}
    (hstep : live (outputRole o) life d = some life')
    (h : rt.runtimePolicy.outputs[o]? = life.value.map positive) :
    (rt.deliver d).runtimePolicy.outputs[o]? = life'.value.map positive := by
  rcases outputRole_cases o d with ⟨a, b, c, e, rfl, hrole⟩ | ⟨a, b, c, e, rfl, hrole⟩ | ⟨hrole, hev⟩
  · obtain ⟨-, rfl⟩ := (live_of_sets hrole).mp hstep
    have hp : (rt.deliver (.event 1 o a b c e)).runtimePolicy
        = step rt.runtimeConfig rt.runtimePolicy (.outputUpsert o ⟨a, b, c, e⟩) := rfl
    rw [hp, outputs_step hr, Event.places, if_pos rfl]
    rfl
  · obtain ⟨-, rfl⟩ := (live_of_closes hrole).mp hstep
    have hp : (rt.deliver (.event 2 o a b c e)).runtimePolicy
        = step rt.runtimeConfig rt.runtimePolicy (.outputRemoved o) := rfl
    rw [hp, outputs_step hr, Event.places, if_pos rfl]
    rfl
  · rw [eq_of_live hrole hstep, ← h]
    rcases (deliver_cases rt d).2.2 with ⟨-, hp⟩ | ⟨ev, hdecode, hp⟩ <;> rw [hp]
    obtain ⟨hplace, hremove⟩ := hev rt ev hdecode
    rw [outputs_step hr, places_of_ne hplace hremove]

/-- Whatever is delivered, the policy mirrors it. -/
theorem mirror_deliver {rt : Runtime} (h : Mirror rt) (d : Delivered) : Mirror (rt.deliver d) := by
  obtain ⟨hlog, hconfig, hpolicy⟩ := deliver_cases rt d
  refine ⟨?_, fun w life' hrun => ?_, fun o life' hrun => ?_⟩
  · rcases hpolicy with ⟨-, hp⟩ | ⟨ev, -, hp⟩ <;> rw [hconfig, hp]
    · exact h.reachable
    · exact h.reachable.event ev
  · rw [hlog] at hrun
    obtain ⟨life, hbefore, hstep⟩ := runMonitor_snoc hrun
    exact managed_deliver h.reachable hstep (h.windows w life hbefore)
  · rw [hlog] at hrun
    obtain ⟨life, hbefore, hstep⟩ := runMonitor_snoc hrun
    exact placed_deliver h.reachable hstep (h.outputs o life hbefore)

/-- Delivering a list of events keeps the mirror. -/
theorem mirror_deliverAll {rt : Runtime} (h : Mirror rt) (ds : List Delivered) :
    Mirror (ds.foldl Runtime.deliver rt) := by
  induction ds generalizing rt with
  | nil => exact h
  | cons d ds ih => exact ih (mirror_deliver h d)

end XmonadWayland.Bridge
