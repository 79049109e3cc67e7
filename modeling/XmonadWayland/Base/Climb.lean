import Mathlib.Data.List.Nodup
import Mathlib.Data.List.Perm.Subperm
import Mathlib.Order.Monotone.Basic

/-!
# XmonadWayland.Base.Climb

Runs that climb.  In each step a run stands still for good or gets a higher mark; if
the place tells the mark, no place is visited again before the run stands still, so it
does so after at most as many steps as there are places.
-/

namespace XmonadWayland

variable {P M : Type}

/-- A run over places with marks that stands still at the steps in `still`. -/
structure Climb [Preorder M] (place : Nat → P) (mark : Nat → M) (still : Nat → Prop) : Prop where
  stays : ∀ n, still n → mark (n + 1) = mark n
  climbs : ∀ n, ¬still n → mark n < mark (n + 1)
  determined : ∀ i j, place i = place j → mark i = mark j

namespace Climb

variable [Preorder M] {place : Nat → P} {mark : Nat → M} {still : Nat → Prop}

/-- The marks never go down. -/
theorem monotone (h : Climb place mark still) : Monotone mark := by
  refine monotone_nat_of_le_succ fun n => ?_
  by_cases hn : still n
  · exact (h.stays n hn).ge
  · exact (h.climbs n hn).le

/-- A place is visited again only where the run stands still. -/
theorem still_of_place_eq (h : Climb place mark still) {i j : Nat} (hij : i < j)
    (hplace : place i = place j) : still i := by
  by_contra hmoves
  have hlt : mark i < mark j := (h.climbs i hmoves).trans_le (h.monotone hij)
  exact hlt.ne (h.determined i j hplace)

/-- With finitely many places to move on from, the run stands still after as many steps. -/
theorem exists_still (h : Climb place mark still) {places : List P}
    (hmem : ∀ n, ¬still n → place n ∈ places) : ∃ n ≤ places.length, still n := by
  by_contra hmoves
  have hmoves : ∀ n ≤ places.length, ¬still n := fun n hn hs => hmoves ⟨n, hn, hs⟩
  -- The first places of the run are different from each other: too many of them.
  have hnd : ((List.range (places.length + 1)).map place).Nodup := by
    refine List.Nodup.map_on (fun i hi j hj heq => ?_) List.nodup_range
    rw [List.mem_range] at hi hj
    rcases lt_trichotomy i j with hlt | heq' | hlt
    · exact absurd (h.still_of_place_eq hlt heq) (hmoves i (by omega))
    · exact heq'
    · exact absurd (h.still_of_place_eq hlt heq.symm) (hmoves j (by omega))
  have hsub : (List.range (places.length + 1)).map place ⊆ places := by
    intro x hx
    obtain ⟨n, hn, rfl⟩ := List.mem_map.mp hx
    rw [List.mem_range] at hn
    exact hmem n (hmoves n (by omega))
  have hlen := (hnd.subperm hsub).length_le
  rw [List.length_map, List.length_range] at hlen
  omega

end Climb

end XmonadWayland
