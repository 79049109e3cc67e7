import XmonadWayland.Policy.Mode
import XmonadWayland.Policy.Redelivery
import XmonadWayland.Policy.Anchors
import XmonadWayland.StackSet.Order

/-!
# XmonadWayland.Policy.Transfer

Moving a window moves its transient family, and nothing else.  The family arrives on
the workspace, every other window stays on its own, the relative order of the others is
kept everywhere, and no screen displays anything else than before.
-/

namespace XmonadWayland

open Relation StackSet

/-! ## What a move does -/

/-- The family is on the workspace tagged `tag`; every other window is on the workspace it
was on, in the same relative order; no window is lost or duplicated. -/
structure FamilyMoved (family : List WindowId) (tag : WorkspaceId) (s s' : WindowSet) : Prop where
  arrived : ∀ x ∈ family, s'.findTag x = some tag
  stayed : ∀ x ∉ family, s'.findTag x = s.findTag x
  order : ∀ t, (orderOf t s').filter (· ∉ family) = (orderOf t s).filter (· ∉ family)
  windows : s'.windows.Perm s.windows

/-- The current workspace, the workspace each output displays and all layouts are kept. -/
structure DisplayKept (s s' : WindowSet) : Prop where
  current : s'.currentTag = s.currentTag
  shown : (s'.screens.map shown).Perm (s.screens.map shown)
  layouts : (s'.workspaces.map label).Perm (s.workspaces.map label)

/-- The same display is kept. -/
theorem displayKept_of_same {s s' : WindowSet} (h : SameDisplay s s') : DisplayKept s s' where
  current := congrArg (fun x => x.2.2) h.current
  shown := h.shown_perm
  layouts := h.labels_perm

/-- Moving a family that is managed to a workspace that exists. -/
theorem familyMoved_foldr {s : WindowSet} (hs : s.WellFormed) {tag : WorkspaceId}
    (htag : tag ∈ s.tags) {family : List WindowId} (hf : ∀ x ∈ family, x ∈ s.windows) :
    FamilyMoved family tag s (family.foldr (shiftWin tag) s) where
  arrived _ hx := findTag_foldr_shiftWin hs htag hf hx
  stayed _ hx := findTag_foldr_shiftWin_of_not_mem hs htag hf hx
  order t := orderOf_foldr_shiftWin hs tag (fun x hx => by simpa using hx) t
  windows := (foldr_shiftWin_spec hs tag family).2.windows

/-- A workspace that does not exist receives nothing. -/
theorem shiftWin_of_not_mem {s : WindowSet} {tag : WorkspaceId} (h : tag ∉ s.tags) (w : WindowId) :
    shiftWin tag w s = s := by
  have hmember : tagMember tag s = false := decide_eq_false h
  unfold shiftWin
  split
  · rw [hmember, if_neg fun hcond => Bool.false_ne_true hcond.1]
  · rfl

/-- Nothing is shifted to a workspace that is not there. -/
theorem foldr_shiftWin_of_not_mem {s : WindowSet} {tag : WorkspaceId} (h : tag ∉ s.tags)
    (family : List WindowId) : family.foldr (shiftWin tag) s = s := by
  induction family with
  | nil => rfl
  | cons w family ih => rw [List.foldr_cons, ih, shiftWin_of_not_mem h]

/-- The window itself is moved last and gets the focus. -/
theorem focus_foldr_shiftWin {s : WindowSet} (hs : s.WellFormed) {tag : WorkspaceId}
    (htag : tag ∈ s.tags) {w : WindowId} {rest : List WindowId} (hw : w ∈ s.windows)
    (hrest : ∀ x ∈ rest, x ∈ s.windows) (hout : w ∉ rest) (hfrom : s.findTag w ≠ some tag) :
    (stackOf tag ((w :: rest).foldr (shiftWin tag) s)).map Stack.focus = some w := by
  have hmoved := (foldr_shiftWin_spec hs tag rest).2
  refine focus_shiftWin (hmoved.wellFormed hs) (hmoved.tags_perm.mem_iff.mpr htag)
    (hmoved.windows.mem_iff.mpr hw) ?_
  rw [findTag_foldr_shiftWin_of_not_mem hs htag hrest hout]
  exact hfrom

/-! ## Families -/

/-- The family of a window: the window and its transient descendants. -/
def familyOf (p : Policy) (w : WindowId) : List WindowId := w :: descendants p w

/-- A family: those from whom the parents lead to the window. -/
theorem mem_familyOf {p : Policy} {w x : WindowId} :
    x ∈ familyOf p w ↔ ReflTransGen (Links (parentOf p)) x w := by
  rw [familyOf, List.mem_cons, mem_descendants]
  constructor
  · rintro (rfl | ⟨-, h⟩)
    · exact .refl
    · exact h
  · exact fun h => or_iff_not_imp_left.mpr fun hne => ⟨hne, h⟩

theorem mem_familyOf_frame {p p' : Policy} (h : PointerFrame p p') {w x : WindowId} :
    x ∈ familyOf p' w ↔ x ∈ familyOf p w := by rw [mem_familyOf, mem_familyOf, parentOf_frame h]

/-- A window is not its own descendant. -/
theorem not_mem_descendants_self (p : Policy) (w : WindowId) : w ∉ descendants p w := fun h =>
  (mem_descendants.mp h).1 rfl

/-- The family does not depend on the parent of the window itself. -/
theorem mem_familyOf_recordParent {p : Policy} {w x : WindowId} (parent : Option WindowId) :
    x ∈ familyOf (recordParent w parent p) w ↔ x ∈ familyOf p w := by
  have hlinks : ∀ a, a ≠ w → parentOf (recordParent w parent p) a = parentOf p a := by
    intro a ha
    rw [parentOf, recordParent, metadataFor_alterMetadata, if_neg (Ne.symm ha)]
    rfl
  rw [mem_familyOf, mem_familyOf]
  exact reaches_congr hlinks

/-- Two families with the same members are moved alike. -/
theorem FamilyMoved.congr {family family' : List WindowId} {tag : WorkspaceId} {s s' : WindowSet}
    (h : FamilyMoved family tag s s') (hmem : ∀ x, x ∈ family' ↔ x ∈ family) :
    FamilyMoved family' tag s s' where
  arrived x hx := h.arrived x ((hmem x).mp hx)
  stayed x hx := h.stayed x fun hin => hx ((hmem x).mpr hin)
  order t := by
    have hkeep : (fun x => decide (x ∉ family')) = fun x => decide (x ∉ family) := by
      funext x
      rw [decide_eq_decide, hmem]
    rw [hkeep]
    exact h.order t
  windows := h.windows

/-! ## Metadata -/

/-- All metadata is kept, apart from the float rectangle of a window whose anchor is
dropped. -/
def MetadataKept (p p' : Policy) : Prop :=
  ∀ wid : WindowId, p'.windowMetadata[wid]? = p.windowMetadata[wid]?
    ∨ p.pointerAnchors[wid]? ≠ none ∧ p'.pointerAnchors[wid]? = none
      ∧ p'.windowMetadata[wid]?.map unplaced = p.windowMetadata[wid]?.map unplaced

/-- Metadata is its float rectangle and the rest. -/
theorem metadata_ext {m m' : Option WindowMetadata} (h : m'.map unplaced = m.map unplaced)
    (hrect : (m'.getD defaultMetadata).windowFloatRect
      = (m.getD defaultMetadata).windowFloatRect) : m' = m := by
  cases m with
  | none => simpa using h
  | some m =>
      cases m' with
      | none => simp at h
      | some m' =>
          simp only [Option.map_some, Option.some.injEq, unplaced, WindowMetadata.mk.injEq,
            Option.getD_some] at h hrect ⊢
          cases m
          cases m'
          simp_all

/-- Finishing an event that left the metadata alone. -/
theorem metadataKept_finish {prepared next : Policy} (hs : next.windowSet.WellFormed)
    (hmeta : next.windowMetadata = prepared.windowMetadata) :
    MetadataKept prepared (validatePointerState (settleAnchors prepared next)) := by
  intro wid
  have hframe := (frame_finish prepared next).metadata wid
  rw [hmeta] at hframe
  have hrect : Untouched wid next (settleAnchors prepared next) →
      (metadataFor (settleAnchors prepared next) wid).windowFloatRect
        = (metadataFor prepared wid).windowFloatRect := by
    intro h
    rw [h.floatRect, metadataFor, metadataFor, hmeta]
  have hsettle := frame_settleAnchors prepared next
  by_cases hanchor : prepared.pointerAnchors[wid]? = none
  · exact Or.inl (metadata_ext hframe (hrect (untouched_settleAnchors_of_gone hanchor next)))
  · by_cases hvalid : anchorValid wid next = true
    · exact Or.inl (metadata_ext hframe (hrect (untouched_settleAnchors hs hvalid prepared)))
    · refine Or.inr ⟨hanchor, anchors_validatePointerState fun h => hvalid ?_, hframe⟩
      exact (anchorValid_frame hs hsettle (by rw [anchors_settleAnchors])).mp h

/-! ## The events -/

/-- A shift transfers the family of the focused window. -/
theorem shift_step (cfg : Config) {p : Policy} (hopen : Open p) {w : WindowId}
    (hw : p.windowSet.peek = some w) (tag : WorkspaceId) :
    step cfg p (.actionRequested (.shift tag)) = validatePointerState
      (settleAnchors (cancelPointer p) (shiftFamily w tag (cancelPointer p))) := by
  have hpeek : (cancelPointer p).windowSet.peek = some w := hw
  rw [step_action cfg (.shift tag) hopen]
  simp only [preparePointerAction, handleAction, hpeek]

/-- A family moved to another workspace that exists. -/
theorem shift_moves {cfg : Config} {p : Policy} (h : Reachable cfg p) (hopen : Open p)
    {w : WindowId} (hw : p.windowSet.peek = some w) {tag : WorkspaceId}
    (htag : tag ∈ p.windowSet.tags) (hfrom : p.windowSet.findTag w ≠ some tag) :
    let p' := step cfg p (.actionRequested (.shift tag))
    FamilyMoved (familyOf p w) tag p.windowSet p'.windowSet
      ∧ (stackOf tag p'.windowSet).map Stack.focus = some w
      ∧ DisplayKept p.windowSet p'.windowSet ∧ MetadataKept p p' := by
  intro p'
  have hprep := frame_cancelPointer p
  have hc := (managed_of_reachable h).toConsistent.frame hprep
  have hs := hc.wellFormed
  have hmem : w ∈ (cancelPointer p).windowSet.windows := mem_windows_of_peek hw
  have hfamily := family_managed hc hmem
  have hp' : p' = validatePointerState (settleAnchors (cancelPointer p)
      (shiftFamily w tag (cancelPointer p))) := shift_step cfg hopen hw tag
  have hws : p'.windowSet = (familyOf (cancelPointer p) w).foldr (shiftWin tag) p.windowSet := by
    rw [hp']
    exact (frame_finish _ (shiftFamily w tag (cancelPointer p))).windowSet
  obtain ⟨hsame, hrearranged⟩ := foldr_shiftWin_spec hs tag (familyOf (cancelPointer p) w)
  rw [hws]
  refine ⟨?_, ?_, displayKept_of_same hsame, ?_⟩
  · exact (familyMoved_foldr hs htag hfamily).congr fun x => (mem_familyOf_frame hprep).symm
  · exact focus_foldr_shiftWin hs htag hmem (fun x hx => hfamily x (List.mem_cons_of_mem w hx))
      (not_mem_descendants_self _ w) hfrom
  · rw [hp']
    have hs' : (shiftFamily w tag (cancelPointer p)).windowSet.WellFormed :=
      hrearranged.wellFormed hs
    exact metadataKept_finish hs' rfl

/-- A shift to nowhere changes nothing. -/
theorem shift_to_nowhere {cfg : Config} {p : Policy} (hopen : Open p) {w : WindowId}
    (hw : p.windowSet.peek = some w) {tag : WorkspaceId} (htag : tag ∉ p.windowSet.tags) :
    (step cfg p (.actionRequested (.shift tag))).windowSet = p.windowSet := by
  rw [shift_step cfg hopen hw]
  exact (frame_finish _ (shiftFamily w tag (cancelPointer p))).windowSet.trans
    (foldr_shiftWin_of_not_mem htag _)

/-- The handler of an accepted parent that is managed. -/
theorem setParent_accepted {p : Policy} {c q : WindowId} {tag : WorkspaceId}
    (htag : p.windowSet.findTag q = some tag) (haccepted : parentRefused c (some q) p = false) :
    setParent c (some q) p = shiftFamily c tag (recordParent c (some q) p) := by
  have hlive : (some q).filter (fun i => p.windowSet.member i) = some q := by
    rw [Option.filter_some, if_pos (by rw [member, htag]; rfl)]
  simp only [setParent, haccepted, Bool.false_eq_true, if_false, hlive, Option.bind_some, htag]

theorem parentRefused_frame {p p' : Policy} (h : PointerFrame p p') (c q : WindowId) :
    parentRefused c (some q) p' = parentRefused c (some q) p := by
  have hdesc : q ∈ descendants p' c ↔ q ∈ descendants p c := by
    rw [mem_descendants, mem_descendants, parentOf_frame h]
  simp only [parentRefused, h.windowSet, hdesc]

/-- A family moved to the workspace of its new parent. -/
theorem parent_moves {cfg : Config} {p : Policy} (h : Reachable cfg p) {c q : WindowId}
    (hq : q ∈ p.windowSet.windows) (haccepted : parentRefused c (some q) p = false) :
    let p' := step cfg p (.windowParent c (some q))
    ∃ tag, p.windowSet.findTag q = some tag ∧ FamilyMoved (familyOf p c) tag p.windowSet p'.windowSet
      ∧ DisplayKept p.windowSet p'.windowSet ∧ ∀ x, x ∈ familyOf p' c ↔ x ∈ familyOf p c := by
  intro p'
  let prepared := preparePointerEvent (.windowParent c (some q)) p
  have hprep : PointerFrame p prepared := frame_preparePointerEvent _ p
  have hc := (managed_of_reachable h).toConsistent.frame hprep
  have hs := hc.wellFormed
  obtain ⟨tag, htag⟩ := Option.isSome_iff_exists.mp (member_iff.mpr hq)
  have htag' : prepared.windowSet.findTag q = some tag := hprep.windowSet ▸ htag
  have hnext := setParent_accepted htag' ((parentRefused_frame hprep c q).trans haccepted)
  have hfin := frame_finish prepared (setParent c (some q) prepared)
  have hmem : c ∈ prepared.windowSet.windows := by
    simp only [parentRefused, Bool.or_eq_false_iff, Bool.not_eq_false'] at haccepted
    exact hprep.windowSet ▸ member_iff.mp haccepted.1
  have hsame : ∀ x, x ∈ familyOf (recordParent c (some q) prepared) c ↔ x ∈ familyOf p c :=
    fun x => (mem_familyOf_recordParent _).trans (mem_familyOf_frame hprep)
  have hfamily : ∀ x ∈ familyOf (recordParent c (some q) prepared) c,
      x ∈ prepared.windowSet.windows := fun x hx =>
    family_managed hc hmem x ((mem_familyOf_recordParent _).mp hx)
  have hexists : tag ∈ prepared.windowSet.tags := by
    obtain ⟨ws, hws, rfl, -⟩ := exists_of_findTag htag'
    exact List.mem_map_of_mem hws
  have hws : p'.windowSet = (familyOf (recordParent c (some q) prepared) c).foldr (shiftWin tag)
      prepared.windowSet := hfin.windowSet.trans (by rw [hnext]; rfl)
  refine ⟨tag, htag, ?_, ?_, fun x => ?_⟩
  · rw [hws, ← hprep.windowSet]
    exact (familyMoved_foldr hs hexists hfamily).congr fun x => (hsame x).symm
  · rw [hws, ← hprep.windowSet]
    exact displayKept_of_same (foldr_shiftWin_spec hs tag _).1
  · refine (mem_familyOf_frame hfin).trans ?_
    rw [hnext, mem_familyOf, ← hsame x, mem_familyOf]
    exact Iff.rfl

/-- **Families move together**: `shift` puts the focused window and its transient
descendants on the workspace, the window focused there, and changes nothing else; so does
an accepted parent with the workspace of the parent. -/
theorem family_moves {cfg : Config} {p : Policy} (h : Reachable cfg p) :
    (∀ w tag, Open p → p.windowSet.peek = some w →
      (tag ∈ p.windowSet.tags → p.windowSet.findTag w ≠ some tag →
        let p' := step cfg p (.actionRequested (.shift tag))
        FamilyMoved (familyOf p w) tag p.windowSet p'.windowSet
          ∧ (stackOf tag p'.windowSet).map Stack.focus = some w
          ∧ DisplayKept p.windowSet p'.windowSet ∧ MetadataKept p p')
      ∧ (tag ∉ p.windowSet.tags →
        (step cfg p (.actionRequested (.shift tag))).windowSet = p.windowSet))
    ∧ ∀ c q, q ∈ p.windowSet.windows → parentRefused c (some q) p = false →
      let p' := step cfg p (.windowParent c (some q))
      ∃ tag, p.windowSet.findTag q = some tag
        ∧ FamilyMoved (familyOf p c) tag p.windowSet p'.windowSet
        ∧ DisplayKept p.windowSet p'.windowSet ∧ ∀ x, x ∈ familyOf p' c ↔ x ∈ familyOf p c :=
  ⟨fun _ _ hopen hw => ⟨fun htag hfrom => shift_moves h hopen hw htag hfrom,
      shift_to_nowhere hopen hw⟩,
    fun _ _ hq haccepted => parent_moves h hq haccepted⟩

/-- The focused window and its dialog. -/
def dialogPolicy : Policy :=
  runEvents defaultConfig [.outputUpsert 1 ⟨0, 0, 800, 600⟩, .windowAdded 10, .windowAdded 20,
    .windowParent 10 (some 20)] (initialPolicy defaultConfig)

/-- A dialog is shifted to workspace 3. -/
theorem family_moves_dialog :
    (step defaultConfig dialogPolicy (.actionRequested (.shift 3))).windowSet.findTag 10
      = some 3 := by
  have hlink : parentOf dialogPolicy 10 = some 20 := by decide +kernel
  have hfamily : 10 ∈ familyOf dialogPolicy 20 := mem_familyOf.mpr (.single hlink)
  exact (((family_moves (reachable_runEvents validateConfig_defaultConfig _)).1 20 3
    ⟨by decide +kernel, by decide +kernel⟩ (by decide +kernel)).1 (by decide +kernel)
    (by decide +kernel)).1.arrived 10 hfamily

end XmonadWayland
