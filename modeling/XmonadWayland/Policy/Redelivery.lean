import XmonadWayland.Policy.Family

/-!
# XmonadWayland.Policy.Redelivery

Metadata that repeats what is recorded.  Size hints and texts that are recorded already
change nothing.  A parent that is recorded already makes the window float and follow the
parent again, so it changes nothing only while both are still so: whatever the user did
with the window in between is undone.
-/

namespace XmonadWayland

open Relation StackSet

/-- Client metadata that is recorded already. -/
inductive Repeats (p : Policy) : Event → Prop
  | parent (wid : WindowId) : Repeats p (.windowParent wid (parentOf p wid))
  | hints {wid : WindowId} {a b c d : Int} : 0 ≤ a ∧ 0 ≤ b ∧ 0 ≤ c ∧ 0 ≤ d →
      (metadataFor p wid).windowHints = (a, b, c, d) → Repeats p (.windowSizeHints wid a b c d)
  | appId {wid : WindowId} {text : String} :
      (metadataFor p wid).windowAppId = some (sanitizeMeta text) → Repeats p (.windowAppId wid text)
  | title {wid : WindowId} {text : String} :
      (metadataFor p wid).windowTitle = some (sanitizeMeta text) → Repeats p (.windowTitle wid text)

/-- What its parent made of a window still holds: it floats iff it has a parent, and the
family is on the parent's workspace. -/
def ParentUpheld (p : Policy) (wid : WindowId) : Prop :=
  isFloat p wid = (parentOf p wid).isSome ∧ ∀ q, parentOf p wid = some q →
    ∀ x ∈ wid :: descendants p wid, p.windowSet.findTag x = p.windowSet.findTag q

/-! ## Nothing to record -/

/-- An event that is neither prepared nor handled leaves a settled policy alone. -/
theorem handleEvent_self (cfg : Config) {ev : Event} {p : Policy} (hset : Settled p)
    (hprep : preparePointerEvent ev p = p) (hnext : handleOrdinaryEvent cfg ev p = (p, [])) :
    handleEvent cfg ev p = (p, []) := by
  simp only [handleEvent, hprep, hnext, settleAnchors_self hset, validatePointerState_self hset]

/-- An update that does nothing to the window's metadata. -/
theorem alterMetadata_self {wid : WindowId} {f : WindowMetadata → WindowMetadata} {p : Policy}
    (h : f (metadataFor p wid) = metadataFor p wid) : alterMetadata wid f p = p := by
  have hmap : p.windowMetadata.modify wid f = p.windowMetadata := by
    refine Std.ExtTreeMap.ext_getElem? fun k => ?_
    rw [getElem?_map_modify]
    split
    · next hk =>
      subst hk
      cases hm : p.windowMetadata[wid]? with
      | none => rfl
      | some m =>
          rw [metadataFor, hm, Option.getD_some] at h
          rw [Option.map_some, h]
    · rfl
  rw [alterMetadata, hmap]

/-- Recording the same hints changes nothing. -/
theorem recordHints_self {m : WindowMetadata} {a b c d : Int}
    (hpos : 0 ≤ a ∧ 0 ≤ b ∧ 0 ≤ c ∧ 0 ≤ d) (h : m.windowHints = (a, b, c, d)) :
    recordHints (max 0 a, max 0 b, max 0 c, max 0 d) m = m := by
  obtain ⟨ha, hb, hc, hd⟩ := hpos
  rw [max_eq_right ha, max_eq_right hb, max_eq_right hc, max_eq_right hd, ← h, recordHints,
    Bool.and_not_self, Bool.or_false]

/-- Nor does recording the same text. -/
theorem recordText_self {wid : WindowId} {f : WindowMetadata → WindowMetadata} {p : Policy}
    (h : f (metadataFor p wid) = metadataFor p wid) : recordText wid f p = p := by
  unfold recordText
  split
  · exact alterMetadata_self h
  · rfl

/-! ## The recorded parent -/

/-- The recorded parent of a managed window is accepted again. -/
theorem parentRefused_parentOf {p : Policy} (hf : Forest p) {wid : WindowId}
    (hwid : wid ∈ p.windowSet.windows) : parentRefused wid (parentOf p wid) p = false := by
  have hmember : p.windowSet.member wid = true := member_iff.mpr hwid
  cases hq : parentOf p wid with
  | none => simp [parentRefused, hmember]
  | some q =>
      have hback : ¬ReflTransGen (Links (parentOf p)) q wid := fun h =>
        hf.acyclic wid (TransGen.head' hq h)
      have hne : q ≠ wid := fun h => hback (h ▸ .refl)
      simp only [parentRefused, hmember, mem_descendants, hne, hback, and_false, decide_false,
        Bool.not_true, Bool.or_self]

/-- A recorded parent is managed. -/
theorem filter_parentOf {p : Policy} (hf : Forest p) (wid : WindowId) :
    (parentOf p wid).filter (fun i => p.windowSet.member i) = parentOf p wid := by
  cases hq : parentOf p wid with
  | none => rfl
  | some q => rw [Option.filter_some, if_pos (member_iff.mpr (hf.managed wid q hq))]

/-- Recording the parent again makes the window float iff it has a parent. -/
theorem recordParent_parentOf {p : Policy} {wid : WindowId}
    (h : isFloat p wid = (parentOf p wid).isSome) : recordParent wid (parentOf p wid) p = p :=
  alterMetadata_self (by rw [← h]; rfl)

/-- Recording the same parent changes no parent. -/
theorem parentOf_recordParent (p : Policy) (wid : WindowId) :
    parentOf (recordParent wid (parentOf p wid) p) = parentOf p := by
  funext x
  rw [parentOf, recordParent, metadataFor_alterMetadata]
  split
  · next heq =>
    subst heq
    rw [parentOf, metadataFor]
    cases p.windowMetadata[wid]? <;> rfl
  · rfl

/-- The family of a managed window is managed. -/
theorem family_managed {tags : List WorkspaceId} {p : Policy} (hc : Consistent tags p)
    {wid : WindowId} (hwid : wid ∈ p.windowSet.windows) :
    ∀ x ∈ wid :: descendants p wid, x ∈ p.windowSet.windows := by
  intro x hx
  rcases List.mem_cons.mp hx with rfl | hx
  · exact hwid
  · obtain ⟨hne, hreach⟩ := mem_descendants.mp hx
    rcases ReflTransGen.cases_head hreach with heq | ⟨q, hq, -⟩
    · exact absurd heq hne
    · exact (hc.metadata x).mp (mem_metadata_of_parentOf hq)

/-- The family does not depend on recording the parent again. -/
theorem mem_descendants_recordParent {p : Policy} {wid x : WindowId} :
    x ∈ descendants (recordParent wid (parentOf p wid) p) wid ↔ x ∈ descendants p wid := by
  rw [mem_descendants, mem_descendants, parentOf_recordParent]

/-- A family is moved to where it is iff it is there. -/
theorem shiftFamily_windowSet {p : Policy} (hs : p.windowSet.WellFormed) {wid q : WindowId}
    (hfamily : ∀ x ∈ wid :: descendants p wid, x ∈ p.windowSet.windows) {tag : WorkspaceId}
    (htag : p.windowSet.findTag q = some tag) :
    (shiftFamily wid tag p).windowSet = p.windowSet
      ↔ ∀ x ∈ wid :: descendants p wid, p.windowSet.findTag x = p.windowSet.findTag q := by
  obtain ⟨ws, hws, heq, -⟩ := exists_of_findTag htag
  rw [htag]
  exact foldr_shiftWin_eq_self hs (heq ▸ List.mem_map_of_mem hws) hfamily

/-- The handler on a recorded parent. -/
theorem setParent_parentOf {p : Policy} (hf : Forest p) {wid : WindowId}
    (hwid : wid ∈ p.windowSet.windows) : setParent wid (parentOf p wid) p
      = match (parentOf p wid).bind fun i => p.windowSet.findTag i with
        | some tag => shiftFamily wid tag (recordParent wid (parentOf p wid) p)
        | none => recordParent wid (parentOf p wid) p := by
  simp only [setParent, parentRefused_parentOf hf hwid, filter_parentOf hf]
  rfl

/-- An upheld parent is recorded again without a change. -/
theorem setParent_of_upheld {tags : List WorkspaceId} {p : Policy} (hc : Consistent tags p)
    (hf : Forest p) {wid : WindowId} (h : ParentUpheld p wid) :
    setParent wid (parentOf p wid) p = p := by
  by_cases hwid : wid ∈ p.windowSet.windows
  · rw [setParent_parentOf hf hwid, recordParent_parentOf h.1]
    split
    · next tag htag =>
      obtain ⟨q, hq, htag⟩ := Option.bind_eq_some_iff.mp htag
      have hset := (shiftFamily_windowSet hc.wellFormed (family_managed hc hwid) htag).mpr (h.2 q hq)
      change { p with windowSet := (shiftFamily wid tag p).windowSet } = p
      rw [hset]
    · rfl
  · have hrefused : parentRefused wid (parentOf p wid) p = true := by
      simp [parentRefused, Bool.eq_false_iff.mpr fun hm => hwid (member_iff.mp hm)]
    rw [setParent, if_pos hrefused]

/-- A parent recorded again without a change is upheld. -/
theorem upheld_of_setParent {tags : List WorkspaceId} {p : Policy} (hc : Consistent tags p)
    (hf : Forest p) {wid : WindowId} (h : PointerFrame (setParent wid (parentOf p wid) p) p) :
    ParentUpheld p wid := by
  by_cases hwid : wid ∈ p.windowSet.windows
  · rw [setParent_parentOf hf hwid] at h
    have hfloat : isFloat (recordParent wid (parentOf p wid) p) wid = (parentOf p wid).isSome := by
      obtain ⟨m, hm⟩ := mem_map_iff.mp ((hc.metadata wid).mpr hwid)
      rw [isFloat, recordParent, metadataFor_alterMetadata, if_pos rfl, hm]
      rfl
    constructor
    · rw [h.isFloat wid]
      split <;> exact hfloat
    · intro q hq
      have hmanaged := member_iff.mpr (hf.managed wid q hq)
      obtain ⟨tag, htag⟩ := Option.isSome_iff_exists.mp hmanaged
      have hset := h.windowSet
      rw [hq, Option.bind_some, htag] at hset
      simp only [← hq] at hset
      have hfamily : ∀ x ∈ wid :: descendants (recordParent wid (parentOf p wid) p) wid,
          x ∈ p.windowSet.windows := fun x hx => family_managed hc hwid x (by
        rwa [List.mem_cons, mem_descendants_recordParent, ← List.mem_cons] at hx)
      have hmoved := (shiftFamily_windowSet (p := recordParent wid (parentOf p wid) p)
        hc.wellFormed hfamily htag).mp hset.symm
      intro x hx
      rw [List.mem_cons, ← mem_descendants_recordParent, ← List.mem_cons] at hx
      exact hmoved x hx
  · have hnone : p.windowMetadata[wid]? = none := by
      cases hm : p.windowMetadata[wid]? with
      | none => rfl
      | some m => exact absurd ((hc.metadata wid).mp (mem_map_iff.mpr ⟨m, hm⟩)) hwid
    have hparent : parentOf p wid = none := by
      rw [parentOf, metadataFor, hnone]
      rfl
    refine ⟨?_, fun q hq => absurd (hparent.symm.trans hq) (Option.some_ne_none q).symm⟩
    rw [hparent, isFloat, metadataFor, hnone]
    rfl

/-- **Metadata delivered again** changes nothing, except a recorded parent: it changes
nothing iff the window still floats iff it has a parent, and its family is still on the
parent's workspace. -/
theorem redelivered_iff {cfg : Config} {p : Policy} (h : Reachable cfg p) {ev : Event}
    (hev : Repeats p ev) : handleEvent cfg ev p = (p, [])
      ↔ ∀ wid parent, ev = .windowParent wid parent → ParentUpheld p wid := by
  have hset := settled_of_reachable h
  have hc := (managed_of_reachable h).toConsistent
  have hf := forest_of_reachable h
  cases hev with
  | parent wid =>
      have hprep : preparePointerEvent (.windowParent wid (parentOf p wid)) p = p :=
        if_neg fun hne => hne rfl
      constructor
      · rintro hself wid' parent heq
        obtain ⟨rfl, -⟩ := Event.windowParent.inj heq
        have hframe := frame_finish p (setParent wid (parentOf p wid) p)
        simp only [handleEvent, hprep, handleOrdinaryEvent, Prod.mk.injEq, and_true] at hself
        rw [hself] at hframe
        exact upheld_of_setParent hc hf hframe
      · intro hupheld
        have hnext := setParent_of_upheld hc hf (hupheld wid _ rfl)
        exact handleEvent_self cfg hset hprep (congrArg (·, []) hnext)
  | @hints wid a b c d hpos hhints =>
      refine iff_of_true (handleEvent_self cfg hset (if_neg ?_) ?_) fun wid' parent heq => ?_
      · obtain ⟨ha, hb, hc, hd⟩ := hpos
        rw [hhints, max_eq_right ha, max_eq_right hb, max_eq_right hc, max_eq_right hd]
        exact fun hne => hne rfl
      · exact congrArg (·, []) (alterMetadata_self (recordHints_self hpos hhints))
      · exact Event.noConfusion heq
  | @appId wid text htext =>
      refine iff_of_true (handleEvent_self cfg hset rfl ?_) fun wid' parent heq => ?_
      · exact congrArg (·, []) (recordText_self (by rw [← htext]))
      · exact Event.noConfusion heq
  | @title wid text htext =>
      refine iff_of_true (handleEvent_self cfg hset rfl ?_) fun wid' parent heq => ?_
      · exact congrArg (·, []) (recordText_self (by rw [← htext]))
      · exact Event.noConfusion heq

/-- A dialog that floats beside its parent is told its parent again. -/
theorem redelivered_iff_default :
    let p := runEvents defaultConfig [.windowAdded 1, .windowAdded 2, .windowParent 2 (some 1)]
      (initialPolicy defaultConfig)
    handleEvent defaultConfig (.windowParent 2 (some 1)) p = (p, []) := by
  intro p
  have hparent : parentOf p 2 = some 1 := by decide +kernel
  have hevent : Repeats p (.windowParent 2 (some 1)) := hparent ▸ .parent 2
  refine (redelivered_iff (reachable_runEvents validateConfig_defaultConfig _) hevent).mpr ?_
  intro wid parent heq
  obtain ⟨rfl, -⟩ := Event.windowParent.inj heq
  refine ⟨by decide +kernel, fun q hq => ?_⟩
  obtain rfl := Option.some.inj (hparent.symm.trans hq)
  decide +kernel

/-- The user tiles a dialog; the same parent arrives again and floats it. -/
theorem redelivered_parent_floats :
    let p := runEvents defaultConfig [.windowAdded 1, .windowAdded 2, .windowParent 2 (some 1),
      .outputUpsert 1 ⟨0, 0, 800, 600⟩, .actionRequested .sink] (initialPolicy defaultConfig)
    Repeats p (.windowParent 2 (some 1)) ∧ isFloat p 2 = false
      ∧ isFloat (step defaultConfig p (.windowParent 2 (some 1))) 2 = true
      ∧ handleEvent defaultConfig (.windowParent 2 (some 1)) p ≠ (p, []) := by
  intro p
  have hparent : parentOf p 2 = some 1 := by decide +kernel
  have hbefore : isFloat p 2 = false := by decide +kernel
  have hafter : isFloat (step defaultConfig p (.windowParent 2 (some 1))) 2 = true := by
    decide +kernel
  refine ⟨hparent ▸ .parent 2, hbefore, hafter, fun hsame => ?_⟩
  rw [step, hsame, hbefore] at hafter
  contradiction

end XmonadWayland
