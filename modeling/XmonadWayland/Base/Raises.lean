import Mathlib.Data.List.Range
import Mathlib.Data.List.Basic

/-!
# XmonadWayland.Base.Raises

Moving elements to the top of an order, one after the other.  What was moved last is on top:
the order of two elements is the order of their last moves.
-/

namespace XmonadWayland

variable {α : Type} [DecidableEq α]

/-- Move `x` to the top. -/
def raise (order : List α) (x : α) : List α := x :: order.filter (· ≠ x)

/-- Move the elements of `moves` to the top, the last one last. -/
def raiseAll (moves order : List α) : List α := moves.foldl raise order

/-- `a` comes before `b`. -/
def Above (order : List α) (a b : α) : Prop := [a, b].Sublist order

instance (order : List α) (a b : α) : Decidable (Above order a b) :=
  inferInstanceAs (Decidable ([a, b].Sublist order))

/-- Raising adds the element at most. -/
theorem mem_raise {order : List α} {x y : α} : y ∈ raise order x ↔ y = x ∨ y ∈ order := by
  rw [raise, List.mem_cons, List.mem_filter]
  by_cases h : y = x <;> simp [h]

/-- Raising several adds these at most. -/
theorem mem_raiseAll {moves order : List α} {y : α} :
    y ∈ raiseAll moves order ↔ y ∈ moves ∨ y ∈ order := by
  induction moves generalizing order with
  | nil => simp [raiseAll]
  | cons x moves ih =>
      rw [raiseAll, List.foldl_cons, ← raiseAll, ih, mem_raise, List.mem_cons]
      exact ⟨fun h => by tauto, fun h => by tauto⟩

/-- A move of another element than the lower one. -/
theorem Above.raise {order : List α} {a b x : α} (h : Above order a b) (hx : x ≠ b) :
    Above (raise order x) a b := by
  have hmem : b ∈ order := h.subset (List.mem_cons_of_mem _ List.mem_cons_self)
  by_cases ha : x = a
  · subst ha
    refine List.Sublist.cons_cons x (List.singleton_sublist.mpr (List.mem_filter.mpr ⟨hmem, ?_⟩))
    simpa using hx.symm
  · have hfilter := List.Sublist.filter (· ≠ x) h
    rw [List.filter_cons_of_pos (by simpa using Ne.symm ha),
      List.filter_cons_of_pos (by simpa using hx.symm)] at hfilter
    exact hfilter.cons x

/-- What is moved later is above what is only moved before. -/
theorem above_of_append {xs ys order : List α} {a b : α} (hb : b ∈ xs) (ha : a ∈ ys)
    (hnot : b ∉ ys) : Above (raiseAll (xs ++ ys) order) a b := by
  have hkeep : ∀ (moves order : List α), b ∉ moves → Above order a b →
      Above (raiseAll moves order) a b := by
    intro moves
    induction moves with
    | nil => exact fun order _ h => h
    | cons x moves ih =>
        intro order hx h
        obtain ⟨hne, hrest⟩ := List.ne_and_not_mem_of_not_mem_cons hx
        exact ih _ hrest (h.raise hne.symm)
  obtain ⟨before, after, rfl⟩ := List.append_of_mem ha
  have hne : b ≠ a := fun heq => hnot (heq ▸ List.mem_append_right _ List.mem_cons_self)
  rw [raiseAll, ← List.append_assoc, List.foldl_append, List.foldl_cons, ← raiseAll, ← raiseAll]
  refine hkeep after _ (fun h => hnot (List.mem_append_right _ (List.mem_cons_of_mem _ h))) ?_
  have hmem : b ∈ raiseAll (xs ++ before) order := mem_raiseAll.mpr (Or.inl (List.mem_append_left _ hb))
  exact List.Sublist.cons_cons a (List.singleton_sublist.mpr
    (List.mem_filter.mpr ⟨hmem, by simpa using hne⟩))

omit [DecidableEq α] in
/-- The rounds before round `i`, that round, and the rounds after it. -/
theorem flatMap_range_split (g : Nat → List α) {i n : Nat} (h : i < n) :
    (List.range n).flatMap g
      = (List.range i).flatMap g ++ (g i ++ (List.range' (i + 1) (n - i - 1)).flatMap g) := by
  have hsplit : List.range n = List.range i ++ (i :: List.range' (i + 1) (n - i - 1)) := by
    have happend := @List.range'_append_1 0 i (n - i)
    rw [Nat.zero_add, show i + (n - i) = n by omega] at happend
    rw [List.range_eq_range', List.range_eq_range', ← List.range'_succ,
      show n - i - 1 + 1 = n - i by omega, happend]
  rw [hsplit, List.flatMap_append, List.flatMap_cons]

end XmonadWayland
