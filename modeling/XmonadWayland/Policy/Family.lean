import XmonadWayland.Policy.Grab
import XmonadWayland.Policy.Population
import XmonadWayland.Base.Links

/-!
# XmonadWayland.Policy.Family

Transient families.  `descendants` computes, on any metadata, the windows that lead to
the root by their parents: the traversal adds only such windows and stops at a set no
window outside links into.  The parents themselves form a forest of managed windows.  A
new parent is refused when it leads back to the window, a parent that is not managed is
not recorded, and a removed window is forgotten as a parent.
-/

namespace XmonadWayland

open Relation StackSet

/-- The parent recorded for a window. -/
def parentOf (p : Policy) (wid : WindowId) : Option WindowId := (metadataFor p wid).windowParent

/-- Only windows with metadata have a parent. -/
theorem mem_metadata_of_parentOf {p : Policy} {wid q : WindowId} (h : parentOf p wid = some q) :
    wid ∈ p.windowMetadata := by
  cases hm : p.windowMetadata[wid]? with
  | none =>
      rw [parentOf, metadataFor, hm] at h
      contradiction
  | some m => exact mem_map_iff.mpr ⟨m, hm⟩

/-! ## The traversal -/

/-- Children are windows with a parent that was seen, which were not seen. -/
theorem mem_childrenOf {p : Policy} {seen : List WindowId} {wid : WindowId} :
    wid ∈ childrenOf p seen ↔ (∃ q ∈ seen, parentOf p wid = some q) ∧ wid ∉ seen := by
  simp only [childrenOf, List.mem_map, List.mem_filter, Bool.and_eq_true, decide_eq_true_eq]
  constructor
  · rintro ⟨⟨wid, m⟩, ⟨hentry, hparent, hnew⟩, rfl⟩
    have hm := Std.ExtTreeMap.mem_toList_iff_getElem?_eq_some.mp hentry
    refine ⟨?_, hnew⟩
    cases hq : m.windowParent with
    | none => simp [hq] at hparent
    | some q =>
        simp only [hq, decide_eq_true_eq] at hparent
        exact ⟨q, hparent, by rw [parentOf, metadataFor, hm, Option.getD_some, hq]⟩
  · rintro ⟨⟨q, hq, hparent⟩, hnew⟩
    obtain ⟨m, hm⟩ := mem_map_iff.mp (mem_metadata_of_parentOf hparent)
    rw [parentOf, metadataFor, hm, Option.getD_some] at hparent
    refine ⟨(wid, m), ⟨Std.ExtTreeMap.mem_toList_iff_getElem?_eq_some.mpr hm, ?_, hnew⟩, rfl⟩
    simp only [hparent, decide_eq_true_eq]
    exact hq

/-- No child is found twice. -/
theorem nodup_childrenOf (p : Policy) (seen : List WindowId) : (childrenOf p seen).Nodup := by
  have hkeys : (p.windowMetadata.toList.map Prod.fst).Nodup := by
    rw [Std.ExtTreeMap.map_fst_toList_eq_keys]
    exact Std.ExtTreeMap.nodup_keys
  exact hkeys.sublist (List.filter_sublist.map Prod.fst)

/-- A traversal under way: it holds the root, and only windows that lead to the root. -/
structure Grown (p : Policy) (root : WindowId) (seen : List WindowId) : Prop where
  mem : root ∈ seen
  nodup : seen.Nodup
  reach : ∀ x ∈ seen, ReflTransGen (Links (parentOf p)) x root

/-- The search starts with the root. -/
theorem grown_root (p : Policy) (root : WindowId) : Grown p root [root] where
  mem := List.mem_singleton_self root
  nodup := List.nodup_singleton root
  reach _ hx := List.mem_singleton.mp hx ▸ .refl

/-- One round of children. -/
theorem Grown.children {p : Policy} {root : WindowId} {seen : List WindowId}
    (h : Grown p root seen) : Grown p root (seen ++ childrenOf p seen) where
  mem := List.mem_append_left _ h.mem
  nodup := by
    refine List.nodup_append'.mpr ⟨h.nodup, nodup_childrenOf p seen, fun x hx hchild => ?_⟩
    exact (mem_childrenOf.mp hchild).2 hx
  reach x hx := by
    rcases List.mem_append.mp hx with hold | hchild
    · exact h.reach x hold
    · obtain ⟨⟨q, hq, hparent⟩, -⟩ := mem_childrenOf.mp hchild
      exact .head hparent (h.reach q hq)

/-- The traversal ends at a set without further children. -/
theorem grown_growFamily {p : Policy} {root : WindowId} {seen : List WindowId}
    (h : Grown p root seen) :
    Grown p root (growFamily p seen) ∧ childrenOf p (growFamily p seen) = [] := by
  fun_induction growFamily p seen with
  | case1 seen hnone => exact ⟨h, hnone⟩
  | case2 seen _ ih => exact ih h.children

/-- What the traversal finds leads to the root, and it finds all of it. -/
theorem mem_growFamily {p : Policy} {root x : WindowId} :
    x ∈ growFamily p [root] ↔ ReflTransGen (Links (parentOf p)) x root := by
  obtain ⟨hgrown, hdone⟩ := grown_growFamily (grown_root p root)
  refine mem_iff_reaches (S := { x | x ∈ growFamily p [root] }) hgrown.mem hgrown.reach ?_
  intro x q hparent hq
  by_contra hx
  have hchild : x ∈ childrenOf p (growFamily p [root]) := mem_childrenOf.mpr ⟨⟨q, hq, hparent⟩, hx⟩
  rw [hdone] at hchild
  contradiction

/-- No descendant is found twice. -/
theorem nodup_descendants (p : Policy) (root : WindowId) : (descendants p root).Nodup :=
  (grown_growFamily (grown_root p root)).1.nodup.filter _

/-- The descendants are the other windows that lead to the root. -/
theorem mem_descendants {p : Policy} {root x : WindowId} :
    x ∈ descendants p root ↔ x ≠ root ∧ ReflTransGen (Links (parentOf p)) x root := by
  rw [descendants, List.mem_filter, decide_eq_true_eq, mem_growFamily, and_comm]

/-! ## The forest -/

/-- Parents are managed, and no window leads back to itself. -/
structure Forest (p : Policy) : Prop where
  managed : ∀ wid q, parentOf p wid = some q → q ∈ p.windowSet.windows
  acyclic : Acyclic (parentOf p)

/-- A parent accepted for a window does not lead back to it. -/
theorem not_reaches_of_accepted {p : Policy} {wid q : WindowId}
    (h : parentRefused wid (some q) p = false) : ¬ReflTransGen (Links (parentOf p)) q wid := by
  simp only [parentRefused, Bool.or_eq_false_iff, decide_eq_false_iff_not, mem_descendants,
    not_and] at h
  exact h.2.2 h.2.1

/-- Pointer bookkeeping changes no parent. -/
theorem parentOf_frame {p p' : Policy} (h : PointerFrame p p') : parentOf p' = parentOf p :=
  funext fun wid => congrArg (fun m => m.windowParent) (h.metadataFor wid)

/-- A forest stays one under it. -/
theorem Forest.frame {p p' : Policy} (h : Forest p) (hframe : PointerFrame p p') : Forest p' where
  managed wid q hq := hframe.windowSet ▸ h.managed wid q (parentOf_frame hframe ▸ hq)
  acyclic := (parentOf_frame hframe).symm ▸ h.acyclic

/-- The parents after a new one is set. -/
theorem parentOf_setParent {p : Policy} {wid : WindowId} {parent : Option WindowId}
    (h : parentRefused wid parent p = false) (hmem : wid ∈ p.windowMetadata) (x : WindowId) :
    parentOf (setParent wid parent p) x
      = if wid = x then parent.filter fun i => p.windowSet.member i else parentOf p x := by
  have hrecord : parentOf (setParent wid parent p) x = parentOf (recordParent wid
      (parent.filter fun i => p.windowSet.member i) p) x := by
    simp only [setParent, h, Bool.false_eq_true, if_false]
    split <;> rfl
  rw [hrecord, parentOf, recordParent, metadataFor_alterMetadata]
  split
  · next heq =>
    subst heq
    obtain ⟨m, hm⟩ := mem_map_iff.mp hmem
    rw [hm]
    rfl
  · rfl

/-- Setting a parent loses no window. -/
theorem windows_setParent {p : Policy} (hs : p.windowSet.WellFormed) (wid : WindowId)
    (parent : Option WindowId) (x : WindowId) :
    x ∈ (setParent wid parent p).windowSet.windows ↔ x ∈ p.windowSet.windows := by
  have hevent : x ∈ (handleOrdinaryEvent defaultConfig (.windowParent wid parent) p).1.windowSet.windows
      ↔ x ∈ p.windowSet.windows := mem_windows_handleOrdinaryEvent defaultConfig hs x
  exact hevent

/-- Setting a parent keeps the parents a forest. -/
theorem forest_setParent {tags : List WorkspaceId} {p : Policy} (hc : Consistent tags p)
    (h : Forest p) (wid : WindowId) (parent : Option WindowId) :
    Forest (setParent wid parent p) := by
  cases hrefused : parentRefused wid parent p with
  | true =>
      rw [setParent, if_pos hrefused]
      exact h
  | false =>
      have hmem : wid ∈ p.windowMetadata := by
        rw [hc.metadata, ← member_iff]
        simp only [parentRefused, Bool.or_eq_false_iff, Bool.not_eq_false'] at hrefused
        exact hrefused.1
      have hparents := parentOf_setParent hrefused hmem
      have hrest : ∀ a, a ≠ wid → parentOf (setParent wid parent p) a = parentOf p a :=
        fun a ha => (hparents a).trans (if_neg (Ne.symm ha))
      have hself := (hparents wid).trans (if_pos rfl)
      constructor
      · intro a q hq
        rw [windows_setParent hc.wellFormed]
        rw [hparents] at hq
        split at hq
        · exact member_iff.mp (Option.filter_eq_some_iff.mp hq).2
        · exact h.managed a q hq
      · cases hlive : parent.filter fun i => p.windowSet.member i with
        | none =>
            refine h.acyclic.of_sub fun a b hb => ?_
            by_cases ha : a = wid
            · rw [ha, hself, hlive] at hb
              contradiction
            · exact (hrest a ha).symm.trans hb
        | some q =>
            have hq : parent = some q := (Option.filter_eq_some_iff.mp hlive).1
            exact h.acyclic.relink (hself.trans hlive) hrest
              (not_reaches_of_accepted (hq ▸ hrefused))

/-- Whatever neither adds nor removes windows nor sets a parent keeps all parents. -/
theorem retains_parent_handleOrdinaryEvent (cfg : Config) {ev : Event} (p : Policy)
    (hev : ev.isLifecycle = false) (hparent : ∀ wid q, ev ≠ .windowParent wid q) (wid : WindowId) :
    Retains WindowMetadata.windowParent wid p (handleOrdinaryEvent cfg ev p).1 := by
  have hself := Retains.refl WindowMetadata.windowParent wid p
  have hframe : ∀ p', PointerFrame p p' → Retains WindowMetadata.windowParent wid p p' := by
    intro p' h
    have hm := congrArg (Option.map WindowMetadata.windowParent) (h.metadata wid)
    rw [Option.map_map, Option.map_map] at hm
    exact hm
  have halter : ∀ (wid' : WindowId) (f : WindowMetadata → WindowMetadata),
      (∀ m, (f m).windowParent = m.windowParent) →
      Retains WindowMetadata.windowParent wid p (alterMetadata wid' f p) :=
    fun wid' f hf => retains_alterMetadata (Or.inr hf) p
  cases ev with
  | pointerStarted sid wid' edges x y =>
      simp only [handleOrdinaryEvent]
      split
      · exact hself
      · rcases startPointer_cases sid wid' edges x y p with
          heq | ⟨q, size, initial, capture, -, -, -, -, heq⟩
        · rw [heq]
          exact hself
        · rw [heq]
          exact hframe (setFloatRect wid' initial (materializeAnchor wid' p))
            ((frame_materializeAnchor wid' p).trans (frame_setFloatRect wid' initial _))
  | pointerMoved sid dx dy => exact hframe _ (frame_movePointer sid dx dy p)
  | pointerReleased sid => exact hframe _ (frame_endPointer sid p)
  | pointerCancelled sid => exact hframe _ (frame_endPointer sid p)
  | windowActualSize wid' width height =>
      simp only [handleOrdinaryEvent]
      split <;> exact hself
  | windowParent wid' q => exact absurd rfl (hparent wid' q)
  | windowSizeHints wid' a b c d => exact halter wid' _ fun _ => rfl
  | windowFullscreen wid' enabled =>
      have h := halter wid' (fun m => { m with windowFullscreen := enabled }) fun _ => rfl
      simp only [handleOrdinaryEvent]
      split <;> exact h
  | windowAppId wid' text =>
      simp only [handleOrdinaryEvent, recordText]
      split
      · exact halter wid' _ fun _ => rfl
      · exact hself
  | windowTitle wid' text =>
      simp only [handleOrdinaryEvent, recordText]
      split
      · exact halter wid' _ fun _ => rfl
      · exact hself
  | focusRequested wid' =>
      simp only [handleOrdinaryEvent]
      split <;> exact hself
  | actionRequested action =>
      exact retains_requestAction cfg ⟨fun _ _ => rfl, fun _ _ => rfl, fun _ _ => rfl,
        fun _ _ => rfl⟩ (Or.inr (Or.inr fun _ _ => rfl))
  | outputWorkArea oid rect => exact hself
  | locked => exact hself
  | unlocked => exact hself
  | _ => contradiction

/-- Apart from a new parent, an event makes no link and forgets a removed window. -/
theorem parentOf_handleOrdinaryEvent (cfg : Config) {ev : Event} {p : Policy}
    (hparent : ∀ wid q, ev ≠ .windowParent wid q) {a b : WindowId}
    (h : parentOf (handleOrdinaryEvent cfg ev p).1 a = some b) :
    parentOf p a = some b ∧ ev ≠ .windowRemoved b := by
  by_cases hev : ev.isLifecycle
  · cases ev with
    | windowAdded wid =>
        refine ⟨?_, Event.noConfusion⟩
        simp only [handleOrdinaryEvent] at h
        split at h
        · exact h
        · simp only [parentOf, metadataFor, getElem?_map_insert] at h
          split at h
          · contradiction
          · exact h
    | windowRemoved wid =>
        simp only [handleOrdinaryEvent, parentOf, metadataFor, Std.ExtTreeMap.getElem?_map,
          getElem?_map_erase] at h
        split at h
        · contradiction
        · cases hm : p.windowMetadata[a]? with
          | none =>
              rw [hm] at h
              contradiction
          | some m =>
              simp only [hm, Option.map_some, Option.getD_some, orphan] at h
              split at h
              · contradiction
              · next hne =>
                rw [parentOf, metadataFor, hm, Option.getD_some]
                refine ⟨h, fun heq => hne ?_⟩
                rw [h, Event.windowRemoved.inj heq]
    | outputUpsert oid rect => exact ⟨h, Event.noConfusion⟩
    | outputRemoved oid => exact ⟨h, Event.noConfusion⟩
    | _ => contradiction
  · have hkeep := retains_parent_handleOrdinaryEvent cfg p (Bool.eq_false_iff.mpr hev) hparent a
    refine ⟨hkeep.metadataFor.symm.trans h, fun heq => hev ?_⟩
    rw [heq]
    rfl

/-- Every event keeps the forest. -/
theorem forest_handleOrdinaryEvent (cfg : Config) (ev : Event) {tags : List WorkspaceId}
    {p : Policy} (hc : Consistent tags p) (h : Forest p) :
    Forest (handleOrdinaryEvent cfg ev p).1 := by
  by_cases hev : ∃ wid parent, ev = .windowParent wid parent
  · obtain ⟨wid, parent, rfl⟩ := hev
    exact forest_setParent hc h wid parent
  · have hparent : ∀ wid q, ev ≠ .windowParent wid q := fun wid q heq => hev ⟨wid, q, heq⟩
    constructor
    · intro wid q hq
      obtain ⟨hold, hkept⟩ := parentOf_handleOrdinaryEvent cfg hparent hq
      have hmem := h.managed wid q hold
      rw [mem_windows_handleOrdinaryEvent cfg hc.wellFormed]
      cases ev with
      | windowAdded wid' => exact Or.inl hmem
      | windowRemoved wid' => exact ⟨hmem, fun heq => hkept (heq ▸ rfl)⟩
      | _ => exact hmem
    · exact h.acyclic.of_sub fun a b hb => (parentOf_handleOrdinaryEvent cfg hparent hb).1

/-- The parents of a reachable policy form a forest. -/
theorem forest_of_reachable {cfg : Config} {p : Policy} (h : Reachable cfg p) : Forest p := by
  induction h with
  | @initial cfg hcfg =>
      have hnone : ∀ wid, parentOf (initialPolicy cfg) wid = none := fun wid => by
        simp [parentOf, metadataFor, initialPolicy, defaultMetadata]
      refine ⟨fun wid q hq => ?_, fun wid hcycle => ?_⟩
      · rw [hnone] at hq
        contradiction
      · obtain ⟨q, hq, -⟩ := TransGen.head'_iff.mp hcycle
        exact absurd ((hnone wid).symm.trans hq) (Option.some_ne_none q).symm
  | @event cfg p ev h ih =>
      have hprep := frame_preparePointerEvent ev p
      have hc := (managed_of_reachable h).toConsistent.frame hprep
      exact (forest_handleOrdinaryEvent cfg ev hc (ih.frame hprep)).frame (frame_finish _ _)
  | reload _ _ _ ih => exact ih

/-- **Transient families**: every recorded parent is another managed window, following
parents ends, and on any metadata the descendants of a window are, once each, the other
windows that lead to it. -/
theorem transient_forest {cfg : Config} {p : Policy} (h : Reachable cfg p) :
    (∀ wid q, parentOf p wid = some q → q ∈ p.windowSet.windows ∧ q ≠ wid)
      ∧ (∀ wid, ∃ n, follow (parentOf p) n wid = none)
      ∧ ∀ (q : Policy) (root : WindowId), (descendants q root).Nodup
        ∧ ∀ x, x ∈ descendants q root ↔ x ≠ root ∧ ∃ n, follow (parentOf q) n x = some root := by
  have hf := forest_of_reachable h
  refine ⟨fun wid q hq => ⟨hf.managed wid q hq, ?_⟩, fun wid => ?_, fun q root => ?_⟩
  · rintro rfl
    exact hf.acyclic q (.single hq)
  · refine exists_follow_eq_none hf.acyclic p.windowSet.windows.toFinset ?_ wid
    intro a b hb
    rw [List.mem_toFinset, ← (managed_of_reachable h).metadata]
    exact mem_metadata_of_parentOf hb
  · exact ⟨nodup_descendants q root, fun x => by rw [mem_descendants, reaches_iff_follow]⟩

/-- Following the parents of a dialog comes to an end. -/
theorem transient_forest_default :
    ∃ n, follow (parentOf (runEvents defaultConfig [.windowAdded 1, .windowAdded 2,
      .windowParent 2 (some 1), .windowParent 1 (some 2)] (initialPolicy defaultConfig))) n 2
        = none :=
  (transient_forest (reachable_runEvents validateConfig_defaultConfig [.windowAdded 1,
    .windowAdded 2, .windowParent 2 (some 1), .windowParent 1 (some 2)])).2.1 2

end XmonadWayland
