import XmonadWayland.Base.Spans
import Mathlib.Data.Rat.Floor

/-!
# XmonadWayland.Base.Slices

Cutting a range at a list of edges.  Whatever the edges are, every point between the
first and the last lies between two neighbouring ones; if they never decrease, the
slices between them follow one another.  The edges of interest are running sums of
weights, scaled to a number of pixels and rounded down.
-/

namespace XmonadWayland

variable {α β : Type}

/-! ## Neighbours -/

/-- Each element with the one after it. -/
def neighbours (l : List α) : List (α × α) := l.zip (l.drop 1)

@[simp] theorem neighbours_nil : neighbours ([] : List α) = [] := rfl

@[simp] theorem neighbours_singleton (a : α) : neighbours [a] = [] := rfl

@[simp] theorem neighbours_cons_cons (a b : α) (l : List α) :
    neighbours (a :: b :: l) = (a, b) :: neighbours (b :: l) := rfl

/-- A list has one pair of neighbours less than elements. -/
theorem length_neighbours (l : List α) : (neighbours l).length = l.length - 1 := by
  simp [neighbours]

/-- The pair at a place is the element there and the next one. -/
theorem getElem?_neighbours (l : List α) (i : Nat) (a b : α) :
    (neighbours l)[i]? = some (a, b) ↔ l[i]? = some a ∧ l[i + 1]? = some b := by
  rw [neighbours, List.getElem?_zip_eq_some, List.getElem?_drop, Nat.add_comm 1 i]

/-- Neighbours are elements. -/
theorem mem_of_mem_neighbours {l : List α} {e : α × α} (h : e ∈ neighbours l) :
    e.1 ∈ l ∧ e.2 ∈ l := by
  obtain ⟨i, hi⟩ := List.mem_iff_getElem?.mp h
  obtain ⟨h1, h2⟩ := (getElem?_neighbours l i e.1 e.2).mp hi
  exact ⟨List.mem_of_getElem? h1, List.mem_of_getElem? h2⟩

/-- Neighbours stand next to each other somewhere. -/
theorem mem_neighbours_iff {l : List α} {a b : α} :
    (a, b) ∈ neighbours l ↔ ∃ front back, l = front ++ a :: b :: back := by
  constructor
  · intro h
    induction l with
    | nil => simp at h
    | cons x l ih =>
        cases l with
        | nil => simp at h
        | cons y l =>
            rw [neighbours_cons_cons, List.mem_cons, Prod.mk.injEq] at h
            rcases h with ⟨rfl, rfl⟩ | h
            · exact ⟨[], l, rfl⟩
            · obtain ⟨front, back, heq⟩ := ih h
              exact ⟨x :: front, back, by rw [heq, List.cons_append]⟩
  · rintro ⟨front, back, rfl⟩
    induction front with
    | nil => exact List.mem_cons_self
    | cons x front ih => cases front <;> exact List.mem_cons_of_mem _ ih

section Order

variable [LinearOrder α]

/-- Between the first and the last element some two neighbours enclose a point. -/
theorem exists_neighbours_between {l : List α} {first last x : α} (hfirst : l.head? = some first)
    (hlast : l.getLast? = some last) (hlo : first ≤ x) (hhi : x < last) :
    ∃ e ∈ neighbours l, e.1 ≤ x ∧ x < e.2 := by
  induction l generalizing first with
  | nil => simp at hfirst
  | cons a l ih =>
      obtain rfl : a = first := by simpa using hfirst
      cases l with
      | nil =>
          obtain rfl : a = last := by simpa using hlast
          exact absurd (hlo.trans_lt hhi) (lt_irrefl a)
      | cons b l =>
          rw [List.getLast?_cons_cons] at hlast
          rcases le_or_gt b x with hb | hb
          · obtain ⟨e, he, hx⟩ := ih rfl hlast hb
            exact ⟨e, List.mem_cons_of_mem _ he, hx⟩
          · exact ⟨(a, b), List.mem_cons_self, hlo, hb⟩

/-- The slices of a list that never decreases follow one another. -/
theorem pairwise_neighbours {l : List α} (h : l.Pairwise (· ≤ ·)) :
    (neighbours l).Pairwise fun e e' => e.2 ≤ e'.1 := by
  induction l with
  | nil => exact List.Pairwise.nil
  | cons a l ih =>
      cases l with
      | nil => exact List.Pairwise.nil
      | cons b l =>
          have hl := h.of_cons
          refine List.pairwise_cons.mpr ⟨fun e he => ?_, ih hl⟩
          rcases List.mem_cons.mp (mem_of_mem_neighbours he).1 with heq | hmem
          · exact le_of_eq heq.symm
          · exact List.rel_of_pairwise_cons hl hmem

/-- Neighbours in a list that never decreases. -/
theorem le_of_mem_neighbours {l : List α} (h : l.Pairwise (· ≤ ·)) {e : α × α}
    (he : e ∈ neighbours l) : e.1 ≤ e.2 := by
  induction l with
  | nil => simp at he
  | cons a l ih =>
      cases l with
      | nil => simp at he
      | cons b l =>
          rw [neighbours_cons_cons, List.mem_cons] at he
          rcases he with rfl | he
          · exact List.rel_of_pairwise_cons h List.mem_cons_self
          · exact ih h.of_cons he

/-- The first element of a sorted list is the least. -/
theorem first_le_of_mem {l : List α} (h : l.Pairwise (· ≤ ·)) {first x : α}
    (hfirst : l.head? = some first) (hx : x ∈ l) : first ≤ x := by
  cases l with
  | nil => simp at hx
  | cons a l =>
      obtain rfl : a = first := by simpa using hfirst
      rcases List.mem_cons.mp hx with rfl | hx
      · exact le_refl x
      · exact List.rel_of_pairwise_cons h hx

/-- The last element of a sorted list is the greatest. -/
theorem le_last_of_mem {l : List α} (h : l.Pairwise (· ≤ ·)) {last x : α}
    (hlast : l.getLast? = some last) (hx : x ∈ l) : x ≤ last := by
  obtain ⟨front, rfl⟩ := List.getLast?_eq_some_iff.mp hlast
  rcases List.mem_append.mp hx with hfront | hend
  · exact (List.pairwise_append.mp h).2.2 x hfront last (List.mem_singleton_self last)
  · exact (List.mem_singleton.mp hend).le

end Order

/-! ## Running sums -/

/-- Running sums of weights that are not negative never fall below the start. -/
theorem le_of_mem_scanl_add {weights : List ℚ} (h : ∀ w ∈ weights, 0 ≤ w) {a e : ℚ}
    (he : e ∈ weights.scanl (· + ·) a) : a ≤ e := by
  induction weights generalizing a with
  | nil =>
      rw [List.scanl_nil, List.mem_singleton] at he
      exact he.ge
  | cons w weights ih =>
      rw [List.scanl_cons, List.mem_cons] at he
      rcases he with rfl | he
      · exact le_refl e
      · have hw := h w List.mem_cons_self
        have hle := ih (fun x hx => h x (List.mem_cons_of_mem w hx)) he
        linarith

/-- Partial sums of weights that are not negative go up. -/
theorem pairwise_scanl_add {weights : List ℚ} (h : ∀ w ∈ weights, 0 ≤ w) (a : ℚ) :
    (weights.scanl (· + ·) a).Pairwise (· ≤ ·) := by
  induction weights generalizing a with
  | nil => exact List.pairwise_singleton _ a
  | cons w weights ih =>
      have hrest : ∀ x ∈ weights, 0 ≤ x := fun x hx => h x (List.mem_cons_of_mem w hx)
      have hw := h w List.mem_cons_self
      rw [List.scanl_cons]
      refine List.pairwise_cons.mpr ⟨fun e he => ?_, ih hrest (a + w)⟩
      have hle := le_of_mem_scanl_add hrest he
      linarith

/-- Adding up from a start is the start and the sum. -/
theorem foldl_add_eq (weights : List ℚ) (a : ℚ) : weights.foldl (· + ·) a = a + weights.sum := by
  induction weights generalizing a with
  | nil => simp
  | cons w weights ih => rw [List.foldl_cons, ih, List.sum_cons, add_assoc]

/-- A partial sum is the sum of what was taken. -/
theorem getElem?_scanl_add (weights : List ℚ) {i : Nat} (h : i ≤ weights.length) :
    (weights.scanl (· + ·) 0)[i]? = some (weights.take i).sum := by
  rw [List.getElem?_scanl, if_pos h, foldl_add_eq, zero_add]

/-- The last partial sum is the whole sum. -/
theorem getLast?_scanl_add (weights : List ℚ) :
    (weights.scanl (· + ·) 0).getLast? = some weights.sum := by
  rw [List.getLast?_eq_getElem?, List.length_scanl, Nat.add_sub_cancel,
    getElem?_scanl_add weights (Nat.le_refl _), List.take_length]

/-! ## Sizes -/

/-- Slots of the given sizes one after another, as start and size. -/
def slotsFrom (start : Int) : List Int → List (Int × Int)
  | [] => []
  | size :: sizes => (start, size) :: slotsFrom (start + size) sizes

@[simp] theorem slotsFrom_nil (start : Int) : slotsFrom start [] = [] := rfl

/-- A slot starts where the one before it ends. -/
@[simp] theorem slotsFrom_cons (start size : Int) (sizes : List Int) :
    slotsFrom start (size :: sizes) = (start, size) :: slotsFrom (start + size) sizes := rfl

/-- The elements of a list with slots of their sizes. -/
def slotsOf (size : α → Int) (start : Int) : List α → List (α × (Int × Int))
  | [] => []
  | a :: l => (a, (start, size a)) :: slotsOf size (start + size a) l

@[simp] theorem slotsOf_nil (size : α → Int) (start : Int) : slotsOf size start [] = [] := rfl

/-- The first element gets the first slot, the others what follows it. -/
@[simp] theorem slotsOf_cons (size : α → Int) (start : Int) (a : α) (l : List α) :
    slotsOf size start (a :: l) = (a, (start, size a)) :: slotsOf size (start + size a) l := rfl

/-- The slots of elements are those of their sizes. -/
theorem slotsOf_eq_zip (size : α → Int) (start : Int) (l : List α) :
    slotsOf size start l = l.zip (slotsFrom start (l.map size)) := by
  induction l generalizing start with
  | nil => rfl
  | cons a l ih => rw [slotsOf_cons, ih, List.map_cons, slotsFrom_cons, List.zip_cons_cons]

/-- The second list's slots start where the first's end. -/
theorem slotsOf_append (size : α → Int) (start : Int) (l l' : List α) :
    slotsOf size start (l ++ l')
      = slotsOf size start l ++ slotsOf size (start + (l.map size).sum) l' := by
  induction l generalizing start with
  | nil => simp
  | cons a l ih => simp [ih, add_assoc]

/-- Only the sizes of the elements matter. -/
theorem slotsOf_congr {size size' : α → Int} {l : List α} (h : ∀ a ∈ l, size' a = size a)
    (start : Int) : slotsOf size' start l = slotsOf size start l := by
  rw [slotsOf_eq_zip, slotsOf_eq_zip, List.map_congr_left h]

/-- Every element gets one slot, in order. -/
theorem fst_slotsOf (size : α → Int) (start : Int) (l : List α) :
    (slotsOf size start l).map Prod.fst = l := by
  induction l generalizing start with
  | nil => rfl
  | cons a l ih => rw [slotsOf_cons, List.map_cons, ih]

/-- A slot has the size of its element. -/
theorem size_of_mem_slotsOf {size : α → Int} {start : Int} {l : List α} {e : α × (Int × Int)}
    (h : e ∈ slotsOf size start l) : e.2.2 = size e.1 := by
  induction l generalizing start with
  | nil => simp at h
  | cons a l ih =>
      rcases List.mem_cons.mp h with rfl | h
      · rfl
      · exact ih h

/-- Two neighbours that exchange some of their sizes leave all other slots in place. -/
theorem slotsOf_exchange {size size' : α → Int} {front back : List α} {a b : α}
    (h : ∀ x ∈ front ++ back, size' x = size x) (hsum : size' a + size' b = size a + size b)
    (start : Int) : slotsOf size' start (front ++ a :: b :: back)
      = slotsOf size start front
        ++ (a, (start + (front.map size).sum, size' a))
          :: (b, (start + (front.map size).sum + size' a, size' b))
          :: slotsOf size (start + (front.map size).sum + (size a + size b)) back := by
  have hfront : ∀ x ∈ front, size' x = size x := fun x hx => h x (List.mem_append_left _ hx)
  have hback : ∀ x ∈ back, size' x = size x := fun x hx => h x (List.mem_append_right _ hx)
  rw [slotsOf_append, slotsOf_congr hfront, List.map_congr_left hfront, slotsOf_cons, slotsOf_cons,
    slotsOf_congr hback, add_assoc (start + _), hsum]

/-- Two sizes that change and keep their sum keep the whole sum. -/
theorem sum_exchange {size size' : α → Int} {front back : List α} {a b : α}
    (h : ∀ x ∈ front ++ back, size' x = size x) (hsum : size' a + size' b = size a + size b) :
    ((front ++ a :: b :: back).map size').sum = ((front ++ a :: b :: back).map size).sum := by
  have hfront : ∀ x ∈ front, size' x = size x := fun x hx => h x (List.mem_append_left _ hx)
  have hback : ∀ x ∈ back, size' x = size x := fun x hx => h x (List.mem_append_right _ hx)
  simp only [List.map_append, List.map_cons, List.sum_append, List.sum_cons,
    List.map_congr_left hfront, List.map_congr_left hback]
  omega

/-- The distances between neighbouring edges. -/
def gaps (edges : List Int) : List Int := (neighbours edges).map fun e => e.2 - e.1

/-- Edges cut slots of the sizes of their gaps. -/
theorem map_neighbours_eq_slotsFrom {edges : List Int} {first : Int}
    (hfirst : edges.head? = some first) :
    (neighbours edges).map (fun e => (e.1, e.2 - e.1)) = slotsFrom first (gaps edges) := by
  induction edges generalizing first with
  | nil => simp at hfirst
  | cons a edges ih =>
      obtain rfl : a = first := by simpa using hfirst
      cases edges with
      | nil => rfl
      | cons b edges => simpa [gaps] using ih rfl

/-- The gaps between edges add up to what lies between the outer ones. -/
theorem sum_gaps {edges : List Int} {first last : Int} (hfirst : edges.head? = some first)
    (hlast : edges.getLast? = some last) : (gaps edges).sum = last - first := by
  induction edges generalizing first with
  | nil => simp at hfirst
  | cons a edges ih =>
      obtain rfl : a = first := by simpa using hfirst
      cases edges with
      | nil =>
          obtain rfl : a = last := by simpa using hlast
          simp [gaps]
      | cons b edges =>
          rw [List.getLast?_cons_cons] at hlast
          have hrest := ih rfl hlast
          simp only [gaps, neighbours_cons_cons, List.map_cons, List.sum_cons] at hrest ⊢
          omega

/-- Running sums of sizes have the sizes as gaps. -/
theorem gaps_scanl (sizes : List Int) (start : Int) : gaps (sizes.scanl (· + ·) start) = sizes := by
  induction sizes generalizing start with
  | nil => rfl
  | cons size sizes ih =>
      have hrest := ih (start + size)
      cases sizes with
      | nil => simp [gaps]
      | cons size' sizes => simpa [gaps] using hrest

/-- Running sums of whole numbers are whole. -/
theorem scanl_cast (sizes : List Int) (start : Int) :
    (sizes.map fun size : Int => (size : ℚ)).scanl (· + ·) (start : ℚ)
      = (sizes.scanl (· + ·) start).map fun size : Int => (size : ℚ) := by
  induction sizes generalizing start with
  | nil => rfl
  | cons size sizes ih =>
      rw [List.map_cons, List.scanl_cons, List.scanl_cons, List.map_cons, ← ih, Int.cast_add]

end XmonadWayland
