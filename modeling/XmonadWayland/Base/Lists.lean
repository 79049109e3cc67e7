import Mathlib.Data.List.Perm.Basic
import Mathlib.Data.List.Nodup
import Mathlib.Data.List.Pairwise

/-!
# XmonadWayland.Base.Lists

List plumbing used by the window-set and policy proofs: removing the element a
search found, duplicate erasure on lists without duplicates, and disjoint pieces of
flattened lists.  Nothing here mentions the window manager.
-/

namespace XmonadWayland

variable {α β γ : Type}

/-! ## Removing what a search found -/

/-- When keys are distinct, erasing by the key of a member erases that member. -/
theorem perm_cons_eraseP_of_mem [DecidableEq β] {l : List α} {f : α → β} {x : α}
    (hx : x ∈ l) (hnd : (l.map f).Nodup) : l.Perm (x :: l.eraseP fun y => f x = f y) := by
  induction l with
  | nil => simp at hx
  | cons y l ih =>
      obtain ⟨hy, hl⟩ := List.nodup_cons.mp hnd
      rcases List.mem_cons.mp hx with rfl | hxl
      · rw [List.eraseP_cons_of_pos (by simp)]
      · have hne : f x ≠ f y := fun e => hy (e ▸ List.mem_map_of_mem hxl)
        rw [List.eraseP_cons_of_neg (by simpa using hne)]
        exact ((ih hxl hl).cons y).trans (List.Perm.swap x y _)

/-! ## Erasing duplicates -/

/-- A list without duplicates stays as it is. -/
theorem eraseDups_of_nodup [DecidableEq α] {l : List α} (h : l.Nodup) : l.eraseDups = l := by
  induction l with
  | nil => rfl
  | cons x l ih =>
      obtain ⟨hx, hl⟩ := List.nodup_cons.mp h
      have hfilter : (l.filter fun b => !b == x) = l := by
        apply List.filter_eq_self.mpr
        intro b hb
        have hne : b ≠ x := fun e => hx (e ▸ hb)
        simpa using hne
      rw [List.eraseDups_cons, hfilter, ih hl]

/-- No duplicates are left. -/
theorem nodup_eraseDups [DecidableEq α] : (l : List α) → l.eraseDups.Nodup
  | [] => by simp
  | x :: l => by
      rw [List.eraseDups_cons, List.nodup_cons]
      have hshort := List.length_filter_le (fun b => !b == x) l
      exact ⟨by simp [List.mem_eraseDups], nodup_eraseDups _⟩
termination_by l => l.length
decreasing_by
  rw [List.length_cons]
  omega

/-! ## Flattened lists -/

/-- Pieces of a list without duplicates have no duplicates and are disjoint. -/
theorem eq_of_mem_flatMap_nodup {l : List α} {f : α → List β} {x y : α} {b : β}
    (h : (l.flatMap f).Nodup) (hx : x ∈ l) (hy : y ∈ l) (hbx : b ∈ f x) (hby : b ∈ f y) :
    x = y := by
  by_contra hne
  have hpw := (List.nodup_flatMap.mp h).2
  have : Std.Symm (Function.onFun List.Disjoint f) := ⟨fun _ _ hab => List.disjoint_comm.mp hab⟩
  exact hpw.forall hx hy hne hbx hby

/-- The first element of a duplicate-free list that satisfies a test met by one
element only. -/
theorem filter_eq_singleton {l : List α} {p : α → Bool} {x : α} (hnd : l.Nodup) (hx : x ∈ l)
    (hp : p x) (honly : ∀ y ∈ l, p y → y = x) : l.filter p = [x] := by
  induction l with
  | nil => simp at hx
  | cons y l ih =>
      obtain ⟨hy, hl⟩ := List.nodup_cons.mp hnd
      rcases List.mem_cons.mp hx with rfl | hxl
      · have hnone : l.filter p = [] := by
          apply List.filter_eq_nil_iff.mpr
          intro z hz hpz
          exact hy (honly z (List.mem_cons_of_mem _ hz) hpz ▸ hz)
        rw [List.filter_cons_of_pos hp, hnone]
      · have hne : ¬p y := fun hpy => hy (honly y List.mem_cons_self hpy ▸ hxl)
        rw [List.filter_cons_of_neg hne]
        exact ih hl hxl fun z hz => honly z (List.mem_cons_of_mem y hz)

/-! ## Positions in a filtered list -/

/-- A list split at a position. -/
theorem eq_take_append_cons {l : List α} {i : Nat} {w : α} (h : l[i]? = some w) :
    l = l.take i ++ w :: l.drop (i + 1) := by
  obtain ⟨hi, rfl⟩ := List.getElem?_eq_some_iff.mp h
  rw [List.getElem_cons_drop, List.take_append_drop]

/-- An element keeps its position under a filter iff everything before it passes. -/
theorem getElem?_filter_iff {l : List α} (hnd : l.Nodup) {f : α → Bool} {i : Nat} {w : α}
    (h : l[i]? = some w) (hw : f w) :
    (l.filter f)[i]? = some w ↔ ∀ x ∈ l.take i, f x := by
  have hlen : (l.take i).length = i :=
    List.length_take_of_le (Nat.le_of_lt (List.getElem?_eq_some_iff.mp h).1)
  have hsplit : l.filter f = (l.take i).filter f ++ w :: (l.drop (i + 1)).filter f := by
    rw [← List.filter_cons_of_pos hw, ← List.filter_append, ← eq_take_append_cons h]
  have hpos : (l.filter f)[((l.take i).filter f).length]? = some w := by
    rw [hsplit, List.getElem?_append_right (Nat.le_refl _), Nat.sub_self]
    rfl
  constructor
  · intro hi
    have hlt := (List.getElem?_eq_some_iff.mp hi).1
    have heq : i = ((l.take i).filter f).length :=
      (List.getElem?_inj hlt (hnd.filter f)).mp (hi.trans hpos.symm)
    exact List.length_filter_eq_length_iff.mp (heq.symm.trans hlen.symm)
  · intro hall
    have hfull : ((l.take i).filter f).length = i :=
      (List.length_filter_eq_length_iff.mpr hall).trans hlen
    rwa [hfull] at hpos

/-! ## Folds of which most steps change nothing -/

variable {σ κ : Type} {step : σ → β → σ}

/-- A state that every step keeps is kept by all of them. -/
theorem foldl_of_fixed {l : List β} {s : σ} (h : ∀ b ∈ l, step s b = s) : l.foldl step s = s := by
  induction l with
  | nil => rfl
  | cons b l ih =>
      rw [List.foldl_cons, h b List.mem_cons_self]
      exact ih fun b' hb' => h b' (List.mem_cons_of_mem b hb')

/-- Pieces with different keys, of which only the one of `x` matters. -/
theorem foldl_flatMap_keyed {l : List α} {key : α → κ} {f : α → List β} {x : α}
    (hnd : (l.map key).Nodup) (hx : x ∈ l)
    (hother : ∀ y ∈ l, key y ≠ key x → ∀ b ∈ f y, ∀ s, step s b = s) (s : σ) :
    (l.flatMap f).foldl step s = (f x).foldl step s := by
  obtain ⟨first, last, rfl⟩ := List.append_of_mem hx
  rw [List.map_append, List.map_cons, List.nodup_middle, List.nodup_cons, List.mem_append,
    not_or] at hnd
  obtain ⟨⟨hfirst, hlast⟩, -⟩ := hnd
  have hnone : ∀ part : List α, (∀ y ∈ part, y ∈ first ++ x :: last) → key x ∉ part.map key →
      ∀ s, (part.flatMap f).foldl step s = s := by
    intro part hpart hkey s
    refine foldl_of_fixed fun b hb => ?_
    obtain ⟨y, hy, hb⟩ := List.mem_flatMap.mp hb
    exact hother y (hpart y hy) (fun heq => hkey (heq ▸ List.mem_map_of_mem hy)) b hb s
  rw [List.flatMap_append, List.flatMap_cons, List.foldl_append, List.foldl_append,
    hnone first (fun y hy => List.mem_append_left _ hy) hfirst,
    hnone last (fun y hy => List.mem_append_right _ (List.mem_cons_of_mem x hy)) hlast]

end XmonadWayland
