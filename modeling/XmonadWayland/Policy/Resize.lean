import XmonadWayland.Policy.Reweigh
import XmonadWayland.Policy.Mode

/-!
# XmonadWayland.Policy.Resize

Resizing a tile from the keyboard.  Along the stacking axis the weights are rewritten as
sizes in pixels, so a resize moves the edge between two neighbours and nothing else, and
the opposite resize moves it back.
-/

namespace XmonadWayland

open StackSet

/-! ## The exchange of sizes -/

/-- The tile that gives way to `w`: the next one, and for the last one the one before. -/
def partner (group : List WindowId) (w : WindowId) : Option WindowId :=
  (group.idxOf? w).bind fun index =>
    group[if index + 1 < group.length then index + 1 else index - 1]?

/-- The amount, within what both tiles have to give. -/
def exchangeable (size : WindowId → Int) (w other : WindowId) (amount : Int) : Int :=
  max (1 - size w) (min (size other - 1) amount)

/-- The sizes after `w` took `delta` from `other`. -/
def exchanged (size : WindowId → Int) (w other : WindowId) (delta : Int) (i : WindowId) : Int :=
  size i + if i = w then delta else if i = other then -delta else 0

/-- Next to each other, in either order. -/
def Adjacent (group : List WindowId) (a b : WindowId) : Prop :=
  (a, b) ∈ neighbours group ∨ (b, a) ∈ neighbours group

/-- In a group of two there is somebody to exchange with. -/
theorem exists_partner {group : List WindowId} {w : WindowId} (hw : w ∈ group)
    (hmany : 2 ≤ group.length) : ∃ other, partner group w = some other ∧ Adjacent group w other := by
  obtain ⟨index, hindex⟩ := Option.isSome_iff_exists.mp (List.isSome_idxOf?.mpr hw)
  obtain ⟨hlt, hget, -⟩ := List.idxOf?_eq_some_iff.mp hindex
  have hat : group[index]? = some w := List.getElem?_eq_some_iff.mpr ⟨hlt, hget⟩
  by_cases hnext : index + 1 < group.length
  · refine ⟨group[index + 1], ?_, Or.inl ?_⟩
    · rw [partner, hindex, Option.bind_some, if_pos hnext, List.getElem?_eq_getElem]
    · exact List.mem_iff_getElem?.mpr ⟨index, (getElem?_neighbours _ _ _ _).mpr
        ⟨hat, List.getElem?_eq_getElem hnext⟩⟩
  · have hprev : index - 1 < group.length := by omega
    refine ⟨group[index - 1], ?_, Or.inr ?_⟩
    · rw [partner, hindex, Option.bind_some, if_neg hnext, List.getElem?_eq_getElem]
    · refine List.mem_iff_getElem?.mpr ⟨index - 1, (getElem?_neighbours _ _ _ _).mpr
        ⟨List.getElem?_eq_getElem hprev, ?_⟩⟩
      rwa [Nat.sub_add_cancel (by omega)]

/-- The neighbour is of the group. -/
theorem Adjacent.mem {group : List WindowId} {a b : WindowId} (h : Adjacent group a b) :
    b ∈ group := h.elim (fun h => (mem_of_mem_neighbours h).2) fun h => (mem_of_mem_neighbours h).1

/-- The neighbour is another one. -/
theorem Adjacent.ne {group : List WindowId} {a b : WindowId} (h : Adjacent group a b)
    (hnd : group.Nodup) : b ≠ a := by
  rintro rfl
  obtain ⟨front, back, rfl⟩ := mem_neighbours_iff.mp (h.elim id id)
  simp [List.nodup_append] at hnd

/-- What the code does to the weights of the group. -/
theorem exchangeWeights_eq {axis : Axis} {amount : Int} {p : Policy} {w other : WindowId} {area : Rect}
    {group : List WindowId} (hpartner : partner group w = some other) (hmany : 1 < group.length)
    (hroom : (group.length : Int) ≤ area.along axis) :
    exchangeWeights axis amount p w area group = reweigh axis (exchanged (extentOf p axis) w other
      (exchangeable (extentOf p axis) w other amount)) group p := by
  obtain ⟨index, hindex, hother⟩ := Option.bind_eq_some_iff.mp hpartner
  have hroom' : (group.length : Int) ≤ if axis = .width then area.rectWidth else area.rectHeight := by
    cases axis <;> exact hroom
  simp only [exchangeWeights, hindex]
  rw [if_pos ⟨hmany, hroom'⟩, hother]
  rfl

/-- Which group `resizeTile` rewrites. -/
theorem resizeTile_eq {p : Policy} {w : WindowId} (area : Rect) (amount : Int)
    (hk : p.windowSet.current.workspace.layout.layoutKind.splits = true) (hw : w ∈ stackGroup p) :
    resizeTile p.windowSet.current.workspace.layout.layoutKind.stackingAxis amount p w area
      = exchangeWeights p.windowSet.current.workspace.layout.layoutKind.stackingAxis amount p w area
        (stackGroup p) := by
  unfold resizeTile stackGroup at *
  cases hkind : p.windowSet.current.workspace.layout.layoutKind with
  | columns => rfl
  | rows => rfl
  | tall =>
      rcases htiles : currentTiles p with _ | ⟨master, slaves⟩
      · simp [hkind, htiles, Layout.stacked] at hw
      · simp only [hkind, htiles, Layout.stacked, Layout.stackingAxis, true_or, if_true,
          List.tail_cons] at hw ⊢
        exact if_pos hw
  | mirror =>
      rcases htiles : currentTiles p with _ | ⟨master, slaves⟩
      · simp [hkind, htiles, Layout.stacked] at hw
      · simp only [hkind, htiles, Layout.stacked, Layout.stackingAxis, or_true, if_true,
          List.tail_cons] at hw ⊢
        exact if_pos hw
  | _ => simp [hkind, Layout.splits] at hk

/-- The exchange keeps the sum, and what both tiles gain and lose leaves them a pixel. -/
theorem exchanged_spec {size : WindowId → Int} {group : List WindowId} {w other : WindowId}
    (hnd : group.Nodup) (hadj : Adjacent group w other) (delta : Int) :
    ((group.map (exchanged size w other delta)).sum = (group.map size).sum)
      ∧ ∀ e ∈ slotsOf (exchanged size w other delta) 0 group, e.1 ≠ w → e.1 ≠ other →
        e ∈ slotsOf size 0 group := by
  have hne := hadj.ne hnd
  have hrest : ∀ x, x ≠ w → x ≠ other → exchanged size w other delta x = size x := by
    intro x hw ho
    simp [exchanged, hw, ho]
  have hboth : exchanged size w other delta w + exchanged size w other delta other
      = size w + size other := by
    simp only [exchanged, if_true, if_neg hne]
    omega
  -- The two neighbours, in the order of the group.
  obtain ⟨a, b, hab, hor⟩ : ∃ a b, (a, b) ∈ neighbours group
      ∧ (a = w ∧ b = other ∨ a = other ∧ b = w) := by
    rcases hadj with h | h
    · exact ⟨w, other, h, Or.inl ⟨rfl, rfl⟩⟩
    · exact ⟨other, w, h, Or.inr ⟨rfl, rfl⟩⟩
  obtain ⟨front, back, rfl⟩ := mem_neighbours_iff.mp hab
  have hout : ∀ x ∈ front ++ back, exchanged size w other delta x = size x := by
    intro x hx
    have hnot : x ≠ a ∧ x ≠ b := by
      rw [List.nodup_append] at hnd
      obtain ⟨-, hnd', hdisjoint⟩ := hnd
      rcases List.mem_append.mp hx with hfront | hback
      · exact ⟨hdisjoint x hfront a List.mem_cons_self,
          hdisjoint x hfront b (List.mem_cons_of_mem a List.mem_cons_self)⟩
      · obtain ⟨ha, hb⟩ := List.nodup_cons.mp hnd'
        exact ⟨fun heq => ha (heq ▸ List.mem_cons_of_mem b hback),
          fun heq => (List.nodup_cons.mp hb).1 (heq ▸ hback)⟩
    rcases hor with ⟨rfl, rfl⟩ | ⟨rfl, rfl⟩
    · exact hrest x hnot.1 hnot.2
    · exact hrest x hnot.2 hnot.1
  have hsum : exchanged size w other delta a + exchanged size w other delta b = size a + size b := by
    rcases hor with ⟨rfl, rfl⟩ | ⟨rfl, rfl⟩ <;> omega
  refine ⟨sum_exchange hout hsum, fun e he hw ho => ?_⟩
  rw [slotsOf_exchange hout hsum] at he
  rw [slotsOf_exchange (fun _ _ => rfl) rfl]
  simp only [List.mem_append, List.mem_cons] at he ⊢
  have hab' : e.1 ≠ a ∧ e.1 ≠ b := by
    rcases hor with ⟨rfl, rfl⟩ | ⟨rfl, rfl⟩
    · exact ⟨hw, ho⟩
    · exact ⟨ho, hw⟩
  rcases he with hfront | rfl | rfl | hback
  · exact Or.inl hfront
  · exact absurd rfl hab'.1
  · exact absurd rfl hab'.2
  · exact Or.inr (Or.inr (Or.inr hback))

/-- The opposite exchange is within bounds and restores the sizes. -/
theorem exchanged_back {size size' : WindowId → Int} {w other : WindowId} {amount : Int}
    (hne : other ≠ w) (hw : 1 ≤ size w) (ho : 1 ≤ size other)
    (hw' : size' w = exchanged size w other amount w)
    (ho' : size' other = exchanged size w other amount other) :
    exchangeable size' w other (-amount) = -amount
      ∧ ∀ i, size' i = exchanged size w other amount i →
        exchanged size' w other (-amount) i = size i := by
  simp only [exchanged, if_true, if_neg hne] at hw' ho'
  refine ⟨?_, fun i hi => ?_⟩
  · simp only [exchangeable, hw', ho']
    omega
  · simp only [exchanged, hi]
    split
    · omega
    · split <;> omega

/-! ## Sized groups -/

section Sized

variable {p : Policy} {area : Rect} {stack : Stack WindowId}

/-- A reweighed policy whose group has the given sizes. -/
structure Sized (h : Stacking p area stack) (size : WindowId → Int) (q : Policy) : Prop where
  reweighed : Reweighed (stackGroup p) p q
  slots : weightedSlots (weightOf q h.axis) (area.along h.axis) (stackGroup p)
    = slotsOf size 0 (stackGroup p)
  pos : ∀ i ∈ stackGroup p, 1 ≤ size i
  sum : ((stackGroup p).map size).sum = area.along h.axis

variable {h : Stacking p area stack} {size : WindowId → Int} {q : Policy}

/-- A window of the group has its slot. -/
theorem Sized.windowRect (hq : Sized h size q) {e : WindowId × (Int × Int)}
    (he : e ∈ slotsOf size 0 (stackGroup p)) :
    windowRect e.1 q = some (placeAlong h.axis h.base e.2) := by
  obtain ⟨h', hgroup⟩ := h.reweighed hq.reweighed
  have hslots := hq.slots
  have hplaced := fun he' => h'.windowRect_slot (e := e) he'
  simp only [Stacking.axis, Stacking.base, hq.reweighed.windowSet, hgroup] at hplaced hslots ⊢
  exact hplaced (hslots ▸ he)

theorem Sized.exists_slot (_ : Sized h size q) {i : WindowId} (hi : i ∈ stackGroup p) :
    ∃ e ∈ slotsOf size 0 (stackGroup p), e.1 = i := by
  have hmem : i ∈ (slotsOf size 0 (stackGroup p)).map Prod.fst := by rwa [fst_slotsOf]
  obtain ⟨e, he, heq⟩ := List.mem_map.mp hmem
  exact ⟨e, he, heq⟩

/-- Its extent is its size. -/
theorem Sized.extentOf (hq : Sized h size q) {i : WindowId} (hi : i ∈ stackGroup p) :
    extentOf q h.axis i = size i := by
  obtain ⟨e, he, rfl⟩ := hq.exists_slot hi
  rw [extentOf_eq (hq.windowRect he), along_placeAlong, size_of_mem_slotsOf he]

/-- Tiles whose slots are the same, and all other windows, have the same rectangle. -/
theorem Sized.windowRect_eq {size' : WindowId → Int} {q' : Policy} (hq : Sized h size q)
    (hq' : Sized h size' q') {x : WindowId} (hsame : ∀ e ∈ slotsOf size' 0 (stackGroup p), e.1 = x →
      e ∈ slotsOf size 0 (stackGroup p)) : XmonadWayland.windowRect x q' = XmonadWayland.windowRect x q := by
  by_cases hx : x ∈ stackGroup p
  · obtain ⟨e, he, rfl⟩ := hq'.exists_slot hx
    rw [hq'.windowRect he, hq.windowRect (hsame e he rfl)]
  · rw [h.windowRect_others hq'.reweighed hx, h.windowRect_others hq.reweighed hx]

theorem Sized.congr (hq : Sized h size q) {size' : WindowId → Int}
    (heq : ∀ i ∈ stackGroup p, size' i = size i) : Sized h size' q where
  reweighed := hq.reweighed
  slots := (slotsOf_congr heq 0).symm ▸ hq.slots
  pos i hi := heq i hi ▸ hq.pos i hi
  sum := by rw [List.map_congr_left heq, hq.sum]

theorem Reweighed.trans {group : List WindowId} {p q q' : Policy} (h : Reweighed group p q)
    (h' : Reweighed group q q') : Reweighed group p q' where
  same := by
    have hsame := h.same
    rw [h'.same, hsame]
  retains wid := (h.retains wid).trans (h'.retains wid)
  others wid hwid := (h.others wid hwid).trans (h'.others wid hwid)

/-- The sizes are the same seen from an earlier policy. -/
theorem Sized.rebase {q' : Policy} {h' : Stacking q area stack} (hq' : Sized h' size q')
    (h : Stacking p area stack) (hq : Reweighed (stackGroup p) p q) : Sized h size q' := by
  obtain ⟨-, hgroup⟩ := h.reweighed hq
  obtain ⟨hre, hslots, hpos, hsum⟩ := hq'
  simp only [Stacking.axis, hq.windowSet, hgroup] at hre hslots hpos hsum
  exact ⟨hq.trans hre, hslots, hpos, hsum⟩

end Sized

/-! ## One resize -/

/-- A focused tile that shares the stacking axis with others, in a policy at rest. -/
structure StackedTile (p : Policy) (area : Rect) (stack : Stack WindowId) (w : WindowId) : Prop
    extends Stacking p area stack where
  settled : Settled p
  resting : p.pointerOperation = none
  opened : Open p
  focus : stack.focus = w
  mem : w ∈ stackGroup p
  many : 2 ≤ (stackGroup p).length
  metadata : ∀ i ∈ stackGroup p, i ∈ p.windowMetadata

theorem Reweighed.mem_metadata {group : List WindowId} {p q : Policy} (h : Reweighed group p q)
    {wid : WindowId} (hwid : wid ∈ p.windowMetadata) : wid ∈ q.windowMetadata := by
  obtain ⟨m, hm⟩ := mem_map_iff.mp hwid
  have hretains := h.retains wid
  rw [Retains, hm, Option.map_some, Option.map_eq_some_iff] at hretains
  obtain ⟨m', hm', -⟩ := hretains
  exact mem_map_iff.mpr ⟨m', hm'⟩

namespace StackedTile

variable {p q : Policy} {area : Rect} {stack : Stack WindowId} {w : WindowId}

/-- No window is twice in the group. -/
theorem nodup (h : StackedTile p area stack w) : (stackGroup p).Nodup := by
  have hnd := (h.wellFormed.stack_nodup p.windowSet.current_mem_workspaces).filter
    fun wid => !isFloat p wid
  unfold stackGroup Layout.stacked
  split
  · exact hnd.tail
  · exact hnd

/-- The tile has the focus. -/
theorem peek (h : StackedTile p area stack w) : p.windowSet.peek = some w :=
  peek_eq_some.mpr ⟨stack, h.shown, h.focus⟩

/-- Nothing is prepared before the resize: a tile has no anchor. -/
theorem prepared (h : StackedTile p area stack w) (amount : Int) (axis : Axis) :
    preparePointerAction p (.resize axis amount) = p := by
  have hcancel : cancelPointer p = p := by
    rw [cancelPointer, ← h.resting]
  have hgone : p.pointerAnchors[w]? = none := by
    by_contra hsome
    obtain ⟨anchor, ha⟩ := Option.ne_none_iff_exists'.mp hsome
    obtain ⟨a, -, hholds⟩ := (anchorValid_iff h.wellFormed).mp
      (h.settled.anchors w (mem_map_iff.mpr ⟨anchor, ha⟩))
    exact Bool.false_ne_true ((mem_tiles_of_mem_stackGroup h.mem).2.symm.trans
      (hholds.isFloat h.wellFormed))
  simp only [preparePointerAction, focusedGeometry, hcancel]
  split
  · next wid hwid =>
    have heq : some wid = some w := by
      rw [← h.peek, ← hwid, focusedWindow]
      split
      · next hcond => rw [focusedWindow, if_pos hcond] at hwid; contradiction
      · rfl
    rw [Option.some.injEq] at heq
    simp only [heq, materializeAnchor, hgone]
  · rfl

/-- The resize rewrites the weights of the group, and nothing else. -/
theorem step_eq (h : StackedTile p area stack w) (cfg : Config) {other : WindowId}
    (hpartner : partner (stackGroup p) w = some other)
    (hroom : ((stackGroup p).length : Int) ≤ area.along h.axis) (amount : Int) :
    step cfg p (.actionRequested (.resize h.axis amount))
      = reweigh h.axis (exchanged (extentOf p h.axis) w other
        (exchangeable (extentOf p h.axis) w other amount)) (stackGroup p) p := by
  have hhandled : (handleOrdinaryEvent cfg (.actionRequested (.resize h.axis amount)) p).1
      = reweigh h.axis (exchanged (extentOf p h.axis) w other
        (exchangeable (extentOf p h.axis) w other amount)) (stackGroup p) p := by
    have hfull := h.fullscreen
    rw [h.focus] at hfull
    have hfloat : (metadataFor p w).windowFloating = false := (mem_tiles_of_mem_stackGroup h.mem).2
    simp only [handleOrdinaryEvent, requestAction_of_open cfg _ h.opened, handleAction, resizeWindow,
      h.peek, h.work, hfull, hfloat, Bool.false_eq_true, if_false]
    rw [resizeTile_eq area amount h.splits h.mem,
      exchangeWeights_eq hpartner (Nat.lt_of_succ_le h.many) hroom]
  have hq := reweighed_reweigh h.axis (exchanged (extentOf p h.axis) w other
    (exchangeable (extentOf p h.axis) w other amount)) (stackGroup p) p
  exact step_of_settled cfg (h.prepared amount h.axis) hhandled hq.anchors
    (h.toStacking.settled hq h.settled h.resting)

theorem reweighed (h : StackedTile p area stack w) (hq : Reweighed (stackGroup p) p q) :
    StackedTile q area stack w := by
  obtain ⟨hstacking, hgroup⟩ := h.toStacking.reweighed hq
  exact { hstacking with
    settled := h.toStacking.settled hq h.settled h.resting
    resting := by rw [hq.same]; exact h.resting
    opened := by rw [hq.same]; exact ⟨h.opened.unlocked, h.opened.mode⟩
    focus := h.focus
    mem := hgroup ▸ h.mem
    many := hgroup ▸ h.many
    metadata := fun i hi => hq.mem_metadata (h.metadata i (hgroup ▸ hi)) }

/-- The displayed extents of the group fill the work area. -/
def Full (h : StackedTile p area stack w) : Prop :=
  ((stackGroup p).map (extentOf p h.axis)).sum = area.along h.axis

/-- Every extent has a pixel. -/
theorem extent_pos (h : StackedTile p area stack w) {i : WindowId} (hi : i ∈ stackGroup p) :
    1 ≤ extentOf p h.axis i := by
  have hfst := fst_weightedSlots (weightOf p h.axis) (area.along h.axis) (stackGroup p)
  rw [← hfst] at hi
  obtain ⟨e, he, rfl⟩ := List.mem_map.mp hi
  have hpos := (fits_weightedSlots h.along_pos he).pos
  rwa [extentOf_eq (h.windowRect_slot he), along_placeAlong]

/-- Full groups are sized by their extents. -/
theorem sized (h : StackedTile p area stack w) (hfull : h.Full) :
    Sized h.toStacking (extentOf p h.axis) p where
  reweighed := ⟨rfl, fun wid => Retains.refl _ wid p, fun wid _ => Retains.refl _ wid p⟩
  slots := h.slots_of_sum hfull
  pos _ hi := h.extent_pos hi
  sum := hfull

/-- There is a pixel for everyone. -/
theorem room (h : StackedTile p area stack w) (hfull : h.Full) :
    ((stackGroup p).length : Int) ≤ area.along h.axis := by
  have hle := List.card_nsmul_le_sum ((stackGroup p).map (extentOf p h.axis)) 1 fun n hn => by
    obtain ⟨i, hi, rfl⟩ := List.mem_map.mp hn
    exact h.extent_pos hi
  rw [hfull, List.length_map, nsmul_one] at hle
  exact hle

/-- The sizes after an exchange fill the area again. -/
theorem sized_step (h : StackedTile p area stack w) (hfull : h.Full) (cfg : Config)
    {other : WindowId} (hpartner : partner (stackGroup p) w = some other)
    (hadj : Adjacent (stackGroup p) w other) (amount : Int) :
    Sized h.toStacking (exchanged (extentOf p h.axis) w other
        (exchangeable (extentOf p h.axis) w other amount))
      (step cfg p (.actionRequested (.resize h.axis amount))) := by
  have hsum := (exchanged_spec h.nodup hadj
    (exchangeable (extentOf p h.axis) w other amount)).1.trans hfull
  have hpos : ∀ i ∈ stackGroup p, 1 ≤ exchanged (extentOf p h.axis) w other
      (exchangeable (extentOf p h.axis) w other amount) i := by
    intro i hi
    have hi' := h.extent_pos hi
    have hw := h.extent_pos h.mem
    have ho := h.extent_pos hadj.mem
    simp only [exchanged, exchangeable]
    split
    · subst_vars
      omega
    · split
      · subst_vars
        omega
      · omega
  rw [h.step_eq cfg hpartner (h.room hfull)]
  exact {
    reweighed := reweighed_reweigh _ _ _ _
    slots := h.slots_of_reweigh h.metadata hpos hsum
    pos := hpos
    sum := hsum }

end StackedTile

/-! ## The exchange of pixels -/

/-- The other axis. -/
def Axis.across : Axis → Axis
  | .width => .height
  | .height => .width

/-- `w` took `delta` pixels along the axis from `other`. -/
structure PixelsMoved (axis : Axis) (delta : Int) (w other : WindowId) (p p' : Policy) : Prop where
  shown : (windowRect w p').isSome ∧ (windowRect other p').isSome
  grows : extentOf p' axis w = extentOf p axis w + delta
  shrinks : extentOf p' axis other = extentOf p axis other - delta
  across : ∀ x, extentOf p' axis.across x = extentOf p axis.across x
  others : ∀ x, x ≠ w → x ≠ other → windowRect x p' = windowRect x p

theorem along_across_placeAlong (axis : Axis) (base : Rect) (place : Int × Int) :
    (placeAlong axis base place).along axis.across = base.along axis.across := by
  cases axis <;> rfl

theorem extentOf_congr {p p' : Policy} {x : WindowId} (h : windowRect x p' = windowRect x p)
    (axis : Axis) : extentOf p' axis x = extentOf p axis x := by
  rw [extentOf, extentOf, h]

/-- All tiles of a sized group have the same extent on the other axis. -/
theorem Sized.across {p q : Policy} {area : Rect} {stack : Stack WindowId}
    {h : Stacking p area stack} {size : WindowId → Int} (hq : Sized h size q) {i : WindowId}
    (hi : i ∈ stackGroup p) :
    XmonadWayland.extentOf q h.axis.across i = h.base.along h.axis.across := by
  obtain ⟨e, he, rfl⟩ := hq.exists_slot hi
  rw [extentOf_eq (hq.windowRect he), along_across_placeAlong]

namespace StackedTile

variable {p q : Policy} {area : Rect} {stack : Stack WindowId} {w : WindowId}

/-- Pixels move between neighbours and nowhere else. -/
theorem pixelsMoved (h : StackedTile p area stack w) (hfull : h.Full) {other : WindowId}
    (hadj : Adjacent (stackGroup p) w other) {delta : Int}
    (hq : Sized h.toStacking (exchanged (extentOf p h.axis) w other delta) q) :
    PixelsMoved h.axis delta w other p q := by
  have hp := h.sized hfull
  have hne := hadj.ne h.nodup
  have hothers : ∀ x, x ≠ w → x ≠ other → windowRect x q = windowRect x p := by
    intro x hxw hxo
    refine hp.windowRect_eq hq fun e he hex => ?_
    exact (exchanged_spec h.nodup hadj delta).2 e he (hex ▸ hxw) (hex ▸ hxo)
  have hshown : ∀ i ∈ stackGroup p, (windowRect i q).isSome := by
    intro i hi
    obtain ⟨e, he, rfl⟩ := hq.exists_slot hi
    rw [hq.windowRect he, Option.isSome_some]
  refine ⟨⟨hshown w h.mem, hshown other hadj.mem⟩, ?_, ?_, fun x => ?_, hothers⟩
  · rw [hq.extentOf h.mem, exchanged, if_pos rfl]
  · rw [hq.extentOf hadj.mem, exchanged, if_neg hne, if_pos rfl]
    rfl
  · by_cases hx : x ∈ stackGroup p
    · rw [hq.across hx, hp.across hx]
    · exact extentOf_congr (h.windowRect_others hq.reweighed hx) _

/-- The opposite resize gives all pixels back. -/
theorem resize_restores (h : StackedTile p area stack w) (hfull : h.Full) (cfg : Config)
    {other : WindowId} (hpartner : partner (stackGroup p) w = some other)
    (hadj : Adjacent (stackGroup p) w other) {amount : Int}
    (hfree : exchangeable (extentOf p h.axis) w other amount = amount) (x : WindowId) :
    windowRect x (step cfg (step cfg p (.actionRequested (.resize h.axis amount)))
      (.actionRequested (.resize h.axis (-amount)))) = windowRect x p := by
  have hp := h.sized hfull
  have hq := h.sized_step hfull cfg hpartner hadj amount
  rw [hfree] at hq
  generalize step cfg p (.actionRequested (.resize h.axis amount)) = q at hq ⊢
  have hgroup := (h.toStacking.reweighed hq.reweighed).2
  have hws := hq.reweighed.windowSet
  have h' := h.reweighed hq.reweighed
  have hext : ∀ i ∈ stackGroup p, extentOf q h.axis i
      = exchanged (extentOf p h.axis) w other amount i := fun i hi => hq.extentOf hi
  have hfull' : h'.Full := by
    simp only [Full, Stacking.axis, hws, hgroup]
    rw [List.map_congr_left hext]
    exact hq.sum
  have hq' := (h'.sized_step hfull' cfg (hgroup ▸ hpartner) (hgroup ▸ hadj) (-amount)).rebase
    h.toStacking hq.reweighed
  simp only [Stacking.axis, hws] at hq'
  have hback := exchanged_back (hadj.ne h.nodup) (h.extent_pos h.mem) (h.extent_pos hadj.mem)
    (hext w h.mem) (hext other hadj.mem)
  rw [hback.1] at hq'
  have hsized : Sized h.toStacking (extentOf p h.axis) _ := hq'.congr fun i hi =>
    (hback.2 i (hext i hi)).symm
  exact hp.windowRect_eq hsized fun e he _ => he

end StackedTile

/-! ## Reachable policies -/

/-- The axis along which the layout of the current workspace stacks tiles. -/
def stackingAxis (p : Policy) : Axis :=
  p.windowSet.current.workspace.layout.layoutKind.stackingAxis

/-- The focused window is a tile that its layout stacks with others, and the displayed
extents of these tiles fill the work area. -/
structure FullStack (p : Policy) (w : WindowId) (area : Rect) : Prop where
  peek : p.windowSet.peek = some w
  fullscreen : (metadataFor p w).windowFullscreen = false
  work : currentArea p = some area
  splits : p.windowSet.current.workspace.layout.layoutKind.splits = true
  mem : w ∈ stackGroup p
  many : 2 ≤ (stackGroup p).length
  full : ((stackGroup p).map (extentOf p (stackingAxis p))).sum = area.along (stackingAxis p)

theorem stackedTile_of_reachable {cfg : Config} {p : Policy} (h : Reachable cfg p) (hopen : Open p)
    {w : WindowId} {area : Rect} (hfull : FullStack p w area) :
    ∃ stack, StackedTile (cancelPointer p) area stack w := by
  obtain ⟨stack, hstack, hfocus⟩ := peek_eq_some.mp hfull.peek
  have hframe := frame_cancelPointer p
  have hc := (managed_of_reachable h).toConsistent
  refine ⟨stack, ?_⟩
  exact {
    wellFormed := hc.wellFormed
    work := hfull.work
    normal := normal_currentArea (outputsNormal_of_reachable h) hfull.work
    shown := hstack
    fullscreen := hfocus ▸ hfull.fullscreen
    splits := hfull.splits
    some_tile := List.ne_nil_of_mem hfull.mem
    settled := (settled_of_reachable h).frame hc.wellFormed hframe rfl
    resting := rfl
    opened := hopen.frame hframe
    focus := hfocus
    mem := hfull.mem
    many := hfull.many
    metadata := fun i hi => (hc.metadata i).mpr (mem_windows_of_mem p.windowSet.current_mem_workspaces
      (mem_tiles_of_mem_stackGroup hi).1) }

/-- A resize along the stacking axis moves pixels between two neighbours, as many as both
can spare, and nothing else; the opposite resize undoes it. -/
def ExchangesPixels (cfg : Config) (p : Policy) (w : WindowId) (amount : Int) : Prop :=
  let axis := stackingAxis p
  let p' := step cfg p (.actionRequested (.resize axis amount))
  ∃ other, Adjacent (stackGroup p) w other
    ∧ 1 - extentOf p axis w ≤ extentOf p axis other - 1
    ∧ PixelsMoved axis (exchangeable (extentOf p axis) w other amount) w other p p'
    ∧ (∀ i ∈ stackGroup p, 1 ≤ extentOf p' axis i)
    ∧ (exchangeable (extentOf p axis) w other amount = amount →
      ∀ x, windowRect x (step cfg p' (.actionRequested (.resize axis (-amount)))) = windowRect x p)

/-- Resizing exchanges pixels with the neighbour. -/
theorem exchangesPixels {cfg : Config} {p : Policy} (h : Reachable cfg p) (hopen : Open p)
    {w : WindowId} {area : Rect} (hfull : FullStack p w area) (amount : Int) :
    ExchangesPixels cfg p w amount := by
  obtain ⟨stack, htile⟩ := stackedTile_of_reachable h hopen hfull
  have hfilled : htile.Full := hfull.full
  obtain ⟨other, hpartner, hadj⟩ := exists_partner htile.mem htile.many
  have hq := htile.sized_step hfilled cfg hpartner hadj amount
  have hw := htile.extent_pos htile.mem
  have ho := htile.extent_pos hadj.mem
  obtain ⟨hshown, hgrows, hshrinks, hacross, hothers⟩ := htile.pixelsMoved hfilled hadj hq
  refine ⟨other, hadj, ?_, ⟨hshown, hgrows, hshrinks, hacross, hothers⟩, fun i hi => ?_,
    fun hfree x => ?_⟩
  · change 1 - extentOf (cancelPointer p) htile.axis w
      ≤ extentOf (cancelPointer p) htile.axis other - 1
    omega
  · exact (hq.extentOf hi).symm ▸ hq.pos i hi
  · exact htile.resize_restores hfilled cfg hpartner hadj hfree x

end XmonadWayland
