import Mathlib.Logic.Relation
import Mathlib.Data.Finset.Card

/-!
# XmonadWayland.Base.Links

Nodes that link to at most one other node.  Without a cycle every path of links ends,
as only finitely many nodes link at all; a new link makes no cycle when its target does
not lead back; and a set that contains a node, leads to it and contains everything that
links into the set is what leads to the node.  A path without a cycle is counted to its end
by as many steps as there are nodes besides its start.
-/

namespace XmonadWayland

open Relation

variable {α : Type} {link link' : α → Option α}

/-- One link. -/
def Links (link : α → Option α) (a b : α) : Prop := link a = some b

/-- Follow `n` links. -/
def follow (link : α → Option α) : Nat → α → Option α
  | 0, a => some a
  | n + 1, a => (link a).bind (follow link n)

/-- Paths of links are links followed. -/
theorem reaches_iff_follow {a b : α} :
    ReflTransGen (Links link) a b ↔ ∃ n, follow link n a = some b := by
  constructor
  · intro h
    induction h using ReflTransGen.head_induction_on with
    | refl => exact ⟨0, rfl⟩
    | head hlink _ ih =>
        obtain ⟨n, hn⟩ := ih
        exact ⟨n + 1, by rw [follow, hlink, Option.bind_some, hn]⟩
  · rintro ⟨n, hn⟩
    induction n generalizing a with
    | zero => exact Option.some.inj hn ▸ .refl
    | succ n ih =>
        obtain ⟨c, hlink, hrest⟩ := Option.bind_eq_some_iff.mp hn
        exact .head hlink (ih hrest)

/-- No node leads back to itself. -/
def Acyclic (link : α → Option α) : Prop := ∀ a, ¬TransGen (Links link) a a

/-- Fewer links. -/
theorem Acyclic.of_sub (h : Acyclic link) (hsub : ∀ a b, link' a = some b → link a = some b) :
    Acyclic link' := fun a hcycle =>
  h a (TransGen.mono (fun b c => hsub b c) a a hcycle)

/-- A path after one node has a new link: it is an old one, or an old one to that node
followed by an old one from the target. -/
theorem reaches_of_relink {w q : α} (hw : link' w = some q)
    (hrest : ∀ a, a ≠ w → link' a = link a) (hback : ¬ReflTransGen (Links link) q w) {a b : α}
    (h : ReflTransGen (Links link') a b) : ReflTransGen (Links link) a b
      ∨ ReflTransGen (Links link) a w ∧ ReflTransGen (Links link) q b := by
  induction h with
  | refl => exact Or.inl .refl
  | @tail c d _ hlink ih =>
      by_cases hc : c = w
      · subst hc
        obtain rfl : q = d := Option.some.inj (hw.symm.trans hlink)
        exact Or.inr ⟨ih.resolve_right fun h => hback h.2, .refl⟩
      · have hold : Links link c d := (hrest c hc).symm.trans hlink
        exact ih.imp (fun h => h.tail hold) fun h => ⟨h.1, h.2.tail hold⟩

/-- What leads to a node does not depend on the link of that node. -/
theorem reaches_congr {root : α} (h : ∀ a, a ≠ root → link' a = link a) {a : α} :
    ReflTransGen (Links link') a root ↔ ReflTransGen (Links link) a root := by
  have hmono : ∀ {f g : α → Option α}, (∀ a, a ≠ root → g a = f a) →
      ReflTransGen (Links g) a root → ReflTransGen (Links f) a root := by
    intro f g hfg hpath
    induction hpath using ReflTransGen.head_induction_on with
    | refl => exact .refl
    | @head c d hlink _ ih =>
        by_cases hc : c = root
        · exact hc ▸ .refl
        · exact ih.head ((hfg c hc).symm.trans hlink)
  exact ⟨hmono h, hmono fun b hb => (h b hb).symm⟩

/-- A new link to a node that does not lead back. -/
theorem Acyclic.relink (h : Acyclic link) {w q : α} (hw : link' w = some q)
    (hrest : ∀ a, a ≠ w → link' a = link a) (hback : ¬ReflTransGen (Links link) q w) :
    Acyclic link' := by
  intro a hcycle
  obtain ⟨b, hlink, hpath⟩ := TransGen.head'_iff.mp hcycle
  have hold := reaches_of_relink hw hrest hback hpath
  by_cases ha : a = w
  · subst ha
    obtain rfl : q = b := Option.some.inj (hw.symm.trans hlink)
    exact hback (hold.elim id And.left)
  · have hfirst : Links link a b := (hrest a ha).symm.trans hlink
    rcases hold with hdirect | ⟨hto, hfrom⟩
    · exact h a (TransGen.head' hfirst hdirect)
    · exact hback (hfrom.trans (ReflTransGen.head hfirst hto))

/-- Without a cycle every path ends. -/
theorem exists_follow_eq_none (h : Acyclic link) (nodes : Finset α)
    (hnodes : ∀ a b, link a = some b → a ∈ nodes) (a : α) : ∃ n, follow link n a = none := by
  classical
  -- The nodes ahead get fewer with every link.
  let ahead (a : α) : Finset α := nodes.filter fun x => ReflTransGen (Links link) a x
  induction hcard : (ahead a).card using Nat.strongRecOn generalizing a with
  | ind n ih =>
      cases hlink : link a with
      | none => exact ⟨1, by rw [follow, hlink, Option.bind_none]⟩
      | some b =>
          have hless : ahead b ⊂ ahead a := by
            refine Finset.ssubset_iff_of_subset (fun x hx => ?_) |>.mpr ⟨a, ?_, ?_⟩
            · obtain ⟨hx, hreach⟩ := Finset.mem_filter.mp hx
              exact Finset.mem_filter.mpr ⟨hx, ReflTransGen.head hlink hreach⟩
            · exact Finset.mem_filter.mpr ⟨hnodes a b hlink, .refl⟩
            · exact fun ha => h a (TransGen.head' hlink (Finset.mem_filter.mp ha).2)
          obtain ⟨k, hk⟩ := ih _ (hcard ▸ Finset.card_lt_card hless) b rfl
          exact ⟨k + 1, by rw [follow, hlink, Option.bind_some, hk]⟩

/-! ## How far a path goes -/

/-- No node that `a` leads to leads back to itself. -/
def AcyclicFrom (link : α → Option α) (a : α) : Prop :=
  ∀ b, ReflTransGen (Links link) a b → ¬TransGen (Links link) b b

/-- Following a link leaves no cycle ahead either. -/
theorem AcyclicFrom.tail {a b : α} (h : AcyclicFrom link a) (hlink : link a = some b) :
    AcyclicFrom link b := fun c hc => h c (ReflTransGen.head hlink hc)

/-- How many of the first `n` links there are. -/
def linkCount (link : α → Option α) : Nat → α → Nat
  | 0, _ => 0
  | n + 1, a => match link a with
    | some b => linkCount link n b + 1
    | none => 0

/-- With as many steps as there are nodes ahead, a path is followed to its end. -/
theorem linkCount_stable {a : α} (h : AcyclicFrom link a) {nodes : Finset α}
    (hnodes : ∀ x y, link x = some y → y ∈ nodes) {n : Nat} {ahead : Finset α}
    (hahead : ∀ x ∈ nodes, TransGen (Links link) a x → x ∈ ahead) (hcard : ahead.card ≤ n) :
    linkCount link (n + 1) a = linkCount link n a := by
  classical
  induction n generalizing a ahead with
  | zero =>
      cases hlink : link a with
      | none => simp only [linkCount, hlink]
      | some b =>
          have hmem := hahead b (hnodes a b hlink) (TransGen.single hlink)
          rw [Finset.card_eq_zero.mp (Nat.le_zero.mp hcard)] at hmem
          exact absurd hmem (Finset.notMem_empty b)
  | succ n ih =>
      cases hlink : link a with
      | none => simp only [linkCount, hlink]
      | some b =>
          have hmem := hahead b (hnodes a b hlink) (TransGen.single hlink)
          -- The next node is not ahead of itself.
          have hrest : ∀ x ∈ nodes, TransGen (Links link) b x → x ∈ ahead.erase b := by
            intro x hx hreach
            refine Finset.mem_erase.mpr ⟨?_, hahead x hx (TransGen.head hlink hreach)⟩
            rintro rfl
            exact h _ (ReflTransGen.single hlink) hreach
          have hless : (ahead.erase b).card ≤ n := by
            rw [Finset.card_erase_of_mem hmem]
            omega
          have hstable := ih (h.tail hlink) hrest hless
          rw [linkCount, linkCount, hlink]
          exact congrArg (· + 1) hstable

/-- One node is one link further from the end than the next, and no path is too long to be
followed: of the nodes at least one is not ahead. -/
theorem linkCount_succ {a b : α} (h : AcyclicFrom link a) {nodes : Finset α}
    (hnodes : ∀ x y, link x = some y → y ∈ nodes) (ha : a ∈ nodes)
    (hlink : link a = some b) :
    linkCount link (nodes.card - 1) a = linkCount link (nodes.card - 1) b + 1 := by
  classical
  have hb : b ∈ nodes.erase a := by
    refine Finset.mem_erase.mpr ⟨?_, hnodes a b hlink⟩
    rintro rfl
    exact h _ .refl (TransGen.single hlink)
  have hpos := Finset.card_pos.mpr ⟨b, hb⟩
  rw [Finset.card_erase_of_mem ha] at hpos
  obtain ⟨n, hn⟩ := Nat.exists_eq_add_of_lt hpos
  rw [Nat.zero_add] at hn
  have hahead : ∀ x ∈ nodes, TransGen (Links link) b x → x ∈ (nodes.erase a).erase b := by
    intro x hx hreach
    refine Finset.mem_erase.mpr ⟨?_, Finset.mem_erase.mpr ⟨?_, hx⟩⟩
    · rintro rfl
      exact h _ (ReflTransGen.single hlink) hreach
    · rintro rfl
      exact h _ .refl (TransGen.head hlink hreach)
  have hcard : ((nodes.erase a).erase b).card ≤ n := by
    rw [Finset.card_erase_of_mem hb, Finset.card_erase_of_mem ha]
    omega
  rw [hn, linkCount_stable (h.tail hlink) hnodes hahead hcard, linkCount, hlink]

/-- A closed set around a node is what leads to the node. -/
theorem mem_iff_reaches {S : Set α} {root : α} (hroot : root ∈ S)
    (hreach : ∀ x ∈ S, ReflTransGen (Links link) x root)
    (hclosed : ∀ x y, link x = some y → y ∈ S → x ∈ S) {x : α} :
    x ∈ S ↔ ReflTransGen (Links link) x root := by
  refine ⟨hreach x, fun h => ?_⟩
  induction h using ReflTransGen.head_induction_on with
  | refl => exact hroot
  | head hlink _ ih => exact hclosed _ _ hlink ih

end XmonadWayland
