import XmonadWayland.Policy.Lock

/-!
# XmonadWayland.Policy.Picker

The letter picker.  Letters are dealt to the stack before hidden windows are
dropped, while a key's index counts the candidates left when the key arrives; and a
selected window is swapped with the head of the stack, not with the focused one.
`finishPicker` is described by the list of candidates, and the theorems say exactly
for which windows and which states the letter drawn is the key that selects, and which
events leave a label right over a run.
-/

namespace XmonadWayland

open StackSet

/-! ## Candidates -/

/-- The visible windows among those a letter was dealt to. -/
def candidates (p : Policy) : List WindowId :=
  (p.windowSet.index.take 35).filter fun wid => wid ∈ visibleWindows p

/-- There are 35 letters. -/
theorem length_letters : letters.length = 35 := by decide +kernel

/-- No letter is used twice. -/
theorem nodup_letters : letters.Nodup := by decide +kernel

/-- Each letter is bound to its index while the picker is open. -/
theorem pickerBinding_of_letter {letter : Char} {i : Nat} (h : letters[i]? = some letter) :
    (⟨keySym letter, 0, .pickerMode, .pickCandidate i⟩ : KeyBinding) ∈ pickerBindings := by
  refine List.mem_append_left _ (List.mem_map.mpr ⟨(letter, i), ?_, rfl⟩)
  exact List.mk_mem_zipIdx_iff_getElem?.mpr h

/-- Labelled windows of a zip, without their labels. -/
theorem map_filterMap_zip {κ α β : Type} (labels : List κ) (l : List α) (f : α → Option β) :
    ((labels.zip l).filterMap fun e => (f e.2).map fun b => (e.1, b, e.2)).map (fun e => e.2.2)
      = (l.take labels.length).filter fun a => (f a).isSome := by
  induction labels generalizing l with
  | nil => simp
  | cons c labels ih =>
      cases l with
      | nil => simp
      | cons a l =>
          rw [List.zip_cons_cons, List.length_cons, List.take_succ_cons]
          cases hf : f a with
          | none =>
              rw [List.filterMap_cons_none (by rw [hf]; rfl),
                List.filter_cons_of_neg (by simp [hf]), ih]
          | some b =>
              rw [List.filterMap_cons_some (by rw [hf]; rfl), List.map_cons,
                List.filter_cons_of_pos (by simp [hf]), ih]

/-- The rectangles the picker draws on. -/
def drawnRects (p : Policy) : Map WindowId Rect :=
  Std.ExtTreeMap.ofList (((renderPolicy p).filter Placement.placementVisible).map fun q =>
    (q.placementWindow, q.placementRect)) compare

theorem isSome_drawnRects (p : Policy) (wid : WindowId) :
    (drawnRects p)[wid]?.isSome = decide (wid ∈ visibleWindows p) := by
  rw [Bool.eq_iff_iff, decide_eq_true_eq, ← Std.ExtTreeMap.mem_iff_isSome_getElem?, drawnRects,
    Std.ExtTreeMap.mem_ofList, List.map_map, List.contains_iff_mem]
  rfl

/-- The letters go along the order; windows not drawn are left out. -/
theorem pickerChoices_eq (p : Policy) : pickerChoices p
    = (letters.zip p.windowSet.index).filterMap fun e =>
      (drawnRects p)[e.2]?.map fun rect => (e.1, rect, e.2) := by
  have hlen : ((letters.zip p.windowSet.index).filterMap fun e =>
      (drawnRects p)[e.2]?.map fun rect => (e.1, rect, e.2)).length ≤ 35 := by
    refine (List.length_filterMap_le _ _).trans ?_
    rw [List.length_zip, length_letters]
    exact Nat.min_le_left _ _
  exact List.take_of_length_le hlen

/-- The choices, without letters and rectangles, are the candidates. -/
theorem map_pickerChoices (p : Policy) : (pickerChoices p).map (fun e => e.2.2) = candidates p := by
  rw [pickerChoices_eq, map_filterMap_zip, length_letters, candidates]
  exact List.filter_congr fun wid _ => isSome_drawnRects p wid

/-- A choice carries the letter of its place in the whole stack. -/
theorem mem_pickerChoices {p : Policy} {letter : Char} {rect : Rect} {wid : WindowId}
    (h : (letter, rect, wid) ∈ pickerChoices p) :
    ∃ i : Nat, letters[i]? = some letter ∧ p.windowSet.index[i]? = some wid
      ∧ wid ∈ visibleWindows p := by
  rw [pickerChoices_eq, List.mem_filterMap] at h
  obtain ⟨⟨c, w⟩, hzip, hmap⟩ := h
  obtain ⟨r, hr, heq⟩ := Option.map_eq_some_iff.mp hmap
  simp only [Prod.mk.injEq] at heq
  obtain ⟨rfl, rfl, rfl⟩ := heq
  obtain ⟨i, hi⟩ := List.mem_iff_getElem?.mp hzip
  obtain ⟨hc, hw⟩ := List.getElem?_zip_eq_some.mp hi
  have hvis := isSome_drawnRects p w
  rw [hr, Option.isSome_some, eq_comm, decide_eq_true_eq] at hvis
  exact ⟨i, hc, hw, hvis⟩

/-! ## Choosing -/

/-- What a letter's key does. -/
theorem finishPicker_eq (index : Int) (p : Policy) :
    finishPicker index p = match (candidates p)[index.toNat]? with
      | some wid => ({ p with
          activeMode := .normalMode, windowSet := swapToWindow wid p.windowSet }, [.hidePicker])
      | none => cancelPicker p := by
  have hget : (candidates p)[index.toNat]?
      = ((pickerChoices p).drop index.toNat).head?.map fun e => e.2.2 := by
    rw [← map_pickerChoices, List.getElem?_map, List.head?_drop]
  rw [finishPicker, hget]
  cases (pickerChoices p).drop index.toNat <;> rfl

/-- Selecting the head changes nothing. -/
theorem swapToWindow_head {wid : WindowId} {s : WindowSet} (h : s.index.head? = some wid) :
    swapToWindow wid s = s := by
  unfold swapToWindow
  split
  · next focused rest hindex =>
    rw [hindex, List.head?_cons, Option.some.injEq] at h
    rw [if_neg (not_not.mpr h)]
  · rfl

/-- Any other window is put in front of the head, with the windows between them above. -/
theorem stack_swapToWindow {wid : WindowId} {s : WindowSet} (hmem : wid ∈ s.index)
    (h : s.index.head? ≠ some wid) : ∃ head above below, s.index = head :: (above ++ wid :: below)
      ∧ (swapToWindow wid s).current.workspace.stack = some ⟨wid, above, head :: below⟩ := by
  cases hindex : s.index with
  | nil =>
      rw [hindex] at hmem
      contradiction
  | cons head rest =>
      rw [hindex, List.head?_cons, ne_eq, Option.some.injEq] at h
      rw [hindex] at hmem
      have hrest : wid ∈ rest := (List.mem_cons.mp hmem).resolve_left fun e => h e.symm
      obtain ⟨idx, hidx⟩ := Option.ne_none_iff_exists'.mp
        (mt List.idxOf?_eq_none_iff.mp (not_not.mpr hrest))
      have hget : rest[idx]? = some wid := by
        obtain ⟨hlt, hat, -⟩ := List.idxOf?_eq_some_iff.mp hidx
        rw [List.getElem?_eq_getElem hlt, hat]
      refine ⟨head, rest.take idx, rest.drop (idx + 1), by rw [← eq_take_append_cons hget], ?_⟩
      simp only [swapToWindow, hindex, if_pos h, hidx, stack_modify']
      rw [index_eq] at hindex
      cases hst : s.current.workspace.stack with
      | none => simp [hst, Stack.integrate'] at hindex
      | some st => rfl

/-- A selected window gets the focus. -/
theorem peek_swapToWindow {wid : WindowId} {s : WindowSet} (hmem : wid ∈ s.index)
    (h : s.index.head? ≠ some wid) : (swapToWindow wid s).peek = some wid := by
  obtain ⟨head, above, below, -, hst⟩ := stack_swapToWindow hmem h
  exact peek_eq_some.mpr ⟨_, hst, rfl⟩

/-- Only the head of the stack is swapped with itself. -/
theorem swapToWindow_eq_self_iff {wid : WindowId} {s : WindowSet} (hnd : s.index.Nodup)
    (hmem : wid ∈ s.index) : swapToWindow wid s = s ↔ s.index.head? = some wid := by
  refine ⟨fun heq => ?_, swapToWindow_head⟩
  by_contra hne
  obtain ⟨head, above, below, hindex, hst⟩ := stack_swapToWindow hmem hne
  -- The list of the new stack would have to begin with the old head.
  have hlist := index_eq s
  rw [← heq, hst, heq, hindex, Stack.integrate', Stack.integrate] at hlist
  rw [hindex] at hnd hne
  have hhead := congrArg List.head? hlist
  cases above with
  | nil =>
      simp only [List.head?_cons, List.reverse_nil, List.nil_append] at hhead
      exact hne hhead
  | cons a above =>
      have hlast : some head = (a :: above).getLast? := by
        rw [← List.head?_cons (l := a :: above ++ wid :: below), hhead, List.head?_append,
          List.head?_reverse]
        simp [List.getLast?_cons]
      have hmem' := List.mem_of_getLast? hlast.symm
      exact (List.nodup_cons.mp hnd).1 (List.mem_append_left _ hmem')

/-- Candidates are on the current workspace. -/
theorem mem_index_of_candidates {p : Policy} {wid : WindowId} (h : wid ∈ candidates p) :
    wid ∈ p.windowSet.index := List.mem_of_mem_take (List.mem_filter.mp h).1

/-- No candidate, or the head of the stack: choosing does nothing. -/
def Idle (p : Policy) (i : Nat) : Prop :=
  (candidates p)[i]? = none ∨ (candidates p)[i]? = p.windowSet.index.head?

/-- A key that finds no other window closes the picker. -/
theorem windowSet_finishPicker_of_idle {p : Policy} {index : Int} (h : Idle p index.toNat) :
    (finishPicker index p).1 = (cancelPicker p).1 := by
  rw [finishPicker_eq]
  rcases h with h | h
  · rw [h]
  · cases hc : (candidates p)[index.toNat]? with
    | none => rfl
    | some wid =>
        simp only [cancelPicker, swapToWindow_head (h.symm.trans hc)]

/-- Otherwise the candidate gets the focus. -/
theorem peek_finishPicker_of_not_idle {p : Policy} {index : Int} (h : ¬Idle p index.toNat) :
    (finishPicker index p).1.windowSet.peek = (candidates p)[index.toNat]? := by
  rw [Idle, not_or] at h
  obtain ⟨wid, hwid⟩ := Option.ne_none_iff_exists'.mp h.1
  rw [finishPicker_eq, hwid]
  rw [hwid] at h
  exact peek_swapToWindow (mem_index_of_candidates (List.mem_of_getElem? hwid)) (Ne.symm h.2)

/-- Any letter leaves the mode. -/
theorem activeMode_finishPicker (index : Int) (p : Policy) :
    (finishPicker index p).1.activeMode = .normalMode := by
  unfold finishPicker
  split <;> rfl

theorem nodup_index {p : Policy} (hs : p.windowSet.WellFormed) : p.windowSet.index.Nodup := by
  rw [index_eq]
  exact hs.stack_nodup p.windowSet.current_mem_workspaces

theorem windowSet_finishPicker_iff {p : Policy} (hs : p.windowSet.WellFormed) (index : Int) :
    (finishPicker index p).1.windowSet = p.windowSet ↔ Idle p index.toNat := by
  refine ⟨fun heq => ?_, fun h => by rw [windowSet_finishPicker_of_idle h]; rfl⟩
  cases hc : (candidates p)[index.toNat]? with
  | none => exact Or.inl hc
  | some wid =>
      rw [finishPicker_eq, hc] at heq
      have hmem := mem_index_of_candidates (List.mem_of_getElem? hc)
      exact Or.inr (hc.trans ((swapToWindow_eq_self_iff (nodup_index hs) hmem).mp heq).symm)

/-! ## The events -/

/-- Pointer bookkeeping changes no candidate. -/
theorem candidates_frame {p p' : Policy} (hs : p.windowSet.WellFormed) (h : PointerFrame p p') :
    candidates p' = candidates p := by
  rw [candidates, candidates, h.windowSet]
  exact List.filter_congr fun wid _ => decide_eq_decide.mpr (visibleWindows_frame hs h)

/-- What opening the picker leaves alone. -/
theorem step_pick (cfg : Config) {p : Policy} (hs : p.windowSet.WellFormed)
    (hfree : p.sessionLocked = false) :
    let p' := step cfg p (.actionRequested .pick)
    p'.windowSet = p.windowSet ∧ p'.sessionLocked = false ∧ candidates p' = candidates p := by
  have hprep := frame_cancelPointer p
  have hnext : (handleOrdinaryEvent cfg (.actionRequested .pick) (cancelPointer p)).1
      = (startPicker (cancelPointer p)).1 := by
    rw [handleOrdinaryEvent, requestAction, hprep.sessionLocked, hfree]
    rfl
  have hpick : (startPicker (cancelPointer p)).1.windowSet = p.windowSet
      ∧ (startPicker (cancelPointer p)).1.sessionLocked = false
      ∧ candidates (startPicker (cancelPointer p)).1 = candidates p := by
    have hmode : candidates { cancelPointer p with activeMode := .pickerMode }
        = candidates (cancelPointer p) := rfl
    have hcand := candidates_frame hs hprep
    unfold startPicker
    split
    · exact ⟨rfl, hfree, hcand⟩
    · exact ⟨rfl, hfree, hmode.trans hcand⟩
  have hfin := frame_finish (cancelPointer p) (startPicker (cancelPointer p)).1
  intro p'
  have hp' : p' = validatePointerState
      (settleAnchors (cancelPointer p) (startPicker (cancelPointer p)).1) := by
    rw [← hnext]
    rfl
  rw [hp']
  refine ⟨hfin.windowSet.trans hpick.1, hfin.sessionLocked.trans hpick.2.1, ?_⟩
  exact (candidates_frame (hpick.1 ▸ hs) hfin).trans hpick.2.2

/-- Choosing is `finishPicker`, up to the pointer bookkeeping. -/
theorem handleEvent_pickCandidate (cfg : Config) {p : Policy} (hfree : p.sessionLocked = false)
    (index : Int) :
    handleEvent cfg (.actionRequested (.pickCandidate index)) p
      = (validatePointerState (settleAnchors (cancelPointer p)
          (finishPicker index (cancelPointer p)).1), [.hidePicker]) := by
  have hnext : handleOrdinaryEvent cfg (.actionRequested (.pickCandidate index)) (cancelPointer p)
      = finishPicker index (cancelPointer p) := by
    rw [handleOrdinaryEvent, requestAction, (frame_cancelPointer p).sessionLocked, hfree]
    rfl
  have heffects : (finishPicker index (cancelPointer p)).2 = [.hidePicker] := by
    unfold finishPicker
    split <;> rfl
  simp only [handleEvent, preparePointerEvent, preparePointerAction, hnext, heffects]

/-- Cancelling hides the overlay and nothing else. -/
theorem handleEvent_pickCancel (cfg : Config) {p : Policy} (hfree : p.sessionLocked = false) :
    handleEvent cfg (.actionRequested .pickCancel) p
      = (validatePointerState (settleAnchors (cancelPointer p)
          (cancelPicker (cancelPointer p)).1), [.hidePicker]) := by
  have hnext : handleOrdinaryEvent cfg (.actionRequested .pickCancel) (cancelPointer p)
      = cancelPicker (cancelPointer p) := by
    rw [handleOrdinaryEvent, requestAction, (frame_cancelPointer p).sessionLocked, hfree]
    rfl
  simp only [handleEvent, preparePointerEvent, preparePointerAction, hnext]
  rfl

/-- The focus after a choice: the candidate, unless choosing it does nothing. -/
theorem peek_pickCandidate (cfg : Config) {p : Policy} (hs : p.windowSet.WellFormed)
    (hfree : p.sessionLocked = false) (i : Nat) :
    let p' := (handleEvent cfg (.actionRequested (.pickCandidate i)) p).1
    (Idle p i → p'.windowSet = p.windowSet)
      ∧ (¬Idle p i → p'.windowSet.peek = (candidates p)[i]? ∧ p'.windowSet ≠ p.windowSet) := by
  have hcand := candidates_frame hs (frame_cancelPointer p)
  have hidle : Idle (cancelPointer p) i ↔ Idle p i := by rw [Idle, Idle, hcand]; exact Iff.rfl
  have hiff := windowSet_finishPicker_iff (p := cancelPointer p) hs i
  have hfin := frame_finish (cancelPointer p) (finishPicker i (cancelPointer p)).1
  intro p'
  have hws : p'.windowSet = (finishPicker i (cancelPointer p)).1.windowSet := by
    have hp' := congrArg Prod.fst (handleEvent_pickCandidate cfg hfree i)
    exact (congrArg Policy.windowSet hp').trans hfin.windowSet
  rw [hws]
  constructor
  · exact fun h => hiff.mpr (hidle.mpr h)
  · intro h
    refine ⟨?_, fun heq => h (hidle.mp (hiff.mp heq))⟩
    rw [peek_finishPicker_of_not_idle (fun hi => h (hidle.mp hi)), hcand]
    rfl

/-! ## Letters -/

/-- When the letter dealt to the window at place `i` is the key that selects it. -/
def LetterSelects (p : Policy) (i : Nat) (wid : WindowId) : Prop :=
  (∀ w ∈ p.windowSet.index.take i, w ∈ visibleWindows p)
      ∧ (i ≠ 0 ∨ p.windowSet.peek = some wid)
    ∨ (candidates p).length ≤ i ∧ p.windowSet.peek = some wid

/-- The visible window at place `i` of the stack is candidate `i` iff those before it are visible. -/
theorem getElem?_candidates_iff {p : Policy} (hs : p.windowSet.WellFormed) {i : Nat}
    {wid : WindowId} (hi : i < 35) (hget : p.windowSet.index[i]? = some wid)
    (hvis : wid ∈ visibleWindows p) :
    (candidates p)[i]? = some wid ↔ ∀ w ∈ p.windowSet.index.take i, w ∈ visibleWindows p := by
  have hkeep := getElem?_filter_iff (f := fun w => decide (w ∈ visibleWindows p))
    ((nodup_index hs).sublist (List.take_sublist 35 _))
    ((List.getElem?_take_of_lt hi).trans hget) (decide_eq_true hvis)
  rw [List.take_take, Nat.min_eq_left (Nat.le_of_lt hi)] at hkeep
  simp only [decide_eq_true_eq] at hkeep
  exact hkeep

/-- A candidate is the head of the stack only at place 0. -/
theorem eq_zero_of_head {p : Policy} (hs : p.windowSet.WellFormed) {i : Nat} {wid : WindowId}
    (hc : (candidates p)[i]? = some wid) (hhead : p.windowSet.index.head? = some wid) : i = 0 := by
  have hvis := (List.mem_filter.mp (List.mem_of_getElem? hc)).2
  have hfirst : (candidates p)[0]? = some wid :=
    (getElem?_candidates_iff hs (Nat.zero_lt_succ 34) (List.head?_eq_getElem? ▸ hhead)
      (of_decide_eq_true hvis)).mpr (by simp)
  exact (List.getElem?_inj (List.getElem?_eq_some_iff.mp hc).1
    (((nodup_index hs).sublist (List.take_sublist 35 _)).filter _)).mp (hc.trans hfirst.symm)

/-- The focus after the key of place `i` is the window there iff `LetterSelects`. -/
theorem focus_after_key {p : Policy} (hs : p.windowSet.WellFormed) {i : Nat} {wid : WindowId}
    (hi : i < 35) (hget : p.windowSet.index[i]? = some wid) (hvis : wid ∈ visibleWindows p) :
    (if (candidates p)[i]? = none ∨ (candidates p)[i]? = p.windowSet.index.head? then
        p.windowSet.peek
      else (candidates p)[i]?) = some wid ↔ LetterSelects p i wid := by
  have hkeep := getElem?_candidates_iff hs hi hget hvis
  by_cases hall : ∀ w ∈ p.windowSet.index.take i, w ∈ visibleWindows p
  · have hc := hkeep.mpr hall
    rw [hc]
    by_cases h0 : i = 0
    · have hhead : some wid = p.windowSet.index.head? := by
        rw [List.head?_eq_getElem?, ← hget, h0]
      rw [if_pos (Or.inr hhead)]
      exact ⟨fun hp => Or.inl ⟨hall, Or.inr hp⟩,
        fun h => h.elim (fun h => h.2.resolve_left (not_not.mpr h0)) fun h => h.2⟩
    · have hne : ¬(some wid = none ∨ some wid = p.windowSet.index.head?) := by
        rintro (h | h)
        · contradiction
        · exact h0 (eq_zero_of_head hs hc h.symm)
      rw [if_neg hne]
      exact ⟨fun _ => Or.inl ⟨hall, Or.inl h0⟩, fun _ => rfl⟩
  · have hshift : (candidates p)[i]? ≠ some wid := fun h => hall (hkeep.mp h)
    have hsel : LetterSelects p i wid ↔
        (candidates p).length ≤ i ∧ p.windowSet.peek = some wid :=
      or_iff_right fun h => hall h.1
    rw [hsel]
    cases hc : (candidates p)[i]? with
    | none =>
        rw [if_pos (Or.inl rfl)]
        exact ⟨fun h => ⟨List.getElem?_eq_none_iff.mp hc, h⟩, fun h => h.2⟩
    | some w =>
        -- Something invisible precedes place `i`, so the candidate there is not the head.
        have hne : ¬(some w = none ∨ some w = p.windowSet.index.head?) := by
          rintro (h | h)
          · contradiction
          · have hi0 : i = 0 := eq_zero_of_head hs hc h.symm
            exact hall (by simp [hi0])
        rw [if_neg hne]
        rw [hc] at hshift
        exact ⟨fun h => absurd h hshift,
          fun h => absurd (List.getElem?_eq_none_iff.mpr h.1) (by rw [hc]; simp)⟩

/-- **Letters**: the letter drawn on a window is the key that focuses it exactly when
`LetterSelects`. -/
theorem pick_letter_iff {cfg : Config} {p : Policy} (h : Reachable cfg p)
    (hfree : p.sessionLocked = false) {letter : Char} {rect : Rect} {wid : WindowId} {i : Nat}
    (hdrawn : (letter, rect, wid) ∈ pickerChoices p) (hi : letters[i]? = some letter) :
    let picking := handleEvent cfg (.actionRequested .pick) p
    let chosen := handleEvent cfg (.actionRequested (.pickCandidate i)) picking.1
    picking.2 = [.showPicker ((pickerChoices p).map fun (c, r, _) => (c, r))]
      ∧ (⟨keySym letter, 0, .pickerMode, .pickCandidate i⟩ : KeyBinding) ∈ pickerBindings
      ∧ (chosen.2 = [.hidePicker] ∧ chosen.1.activeMode = .normalMode
          ∧ chosen.1.windowSet.peek = some wid ↔ LetterSelects p i wid) := by
  have hs := (managed_of_reachable h).wellFormed
  intro picking chosen
  refine ⟨?_, pickerBinding_of_letter hi, ?_⟩
  · have heffects : picking.2 = (startPicker (cancelPointer p)).2 := by
      change (handleOrdinaryEvent cfg (.actionRequested .pick) (cancelPointer p)).2 = _
      rw [handleOrdinaryEvent, requestAction, (frame_cancelPointer p).sessionLocked, hfree]
      rfl
    have hchoices : pickerChoices (cancelPointer p) = pickerChoices p := rfl
    rw [heffects, startPicker, hchoices]
    cases hc : pickerChoices p with
    | nil => rw [hc] at hdrawn; contradiction
    | cons c cs => rfl
  · obtain ⟨j, hj, hget, hvis⟩ := mem_pickerChoices hdrawn
    have hlt := (List.getElem?_eq_some_iff.mp hi).1
    have hji : i = j := (List.getElem?_inj hlt nodup_letters).mp (hi.trans hj.symm)
    rw [length_letters] at hlt
    subst hji
    obtain ⟨hws, hfree', hcand⟩ := step_pick cfg hs hfree
    obtain ⟨hidle, hmove⟩ := peek_pickCandidate cfg (hws ▸ hs) hfree' i
    have hchosen := handleEvent_pickCandidate cfg hfree' i
    have heff : chosen.2 = [.hidePicker] := congrArg Prod.snd hchosen
    have hmode : chosen.1.activeMode = .normalMode :=
      (congrArg (fun r : Policy × List Effect => r.1.activeMode) hchosen).trans
        ((frame_finish _ _).activeMode.trans (activeMode_finishPicker _ _))
    rw [and_iff_right heff, and_iff_right hmode, ← focus_after_key hs hlt hget hvis]
    simp only [Idle, hcand, hws] at hidle hmove
    split
    · next hcond =>
      rw [← hidle hcond]
      rfl
    · next hcond =>
      rw [← (hmove hcond).1]
      rfl

theorem pick_letter_iff_default :
    let p := runEvents defaultConfig [.outputUpsert 1 ⟨0, 0, 800, 600⟩, .windowAdded 10,
      .windowAdded 20] (initialPolicy defaultConfig)
    (handleEvent defaultConfig (.actionRequested (.pickCandidate 1))
      (handleEvent defaultConfig (.actionRequested .pick) p).1).1.windowSet.peek = some 10 := by
  have hletter : letters[1]? = some 'b' := by decide +kernel
  have hdrawn : ('b', (⟨400, 0, 400, 600⟩ : Rect), 10) ∈ pickerChoices (runEvents defaultConfig
      [.outputUpsert 1 ⟨0, 0, 800, 600⟩, .windowAdded 10, .windowAdded 20]
      (initialPolicy defaultConfig)) := by decide +kernel
  have h := pick_letter_iff (reachable_runEvents validateConfig_defaultConfig
    [.outputUpsert 1 ⟨0, 0, 800, 600⟩, .windowAdded 10, .windowAdded 20]) (by decide +kernel)
    hdrawn hletter
  exact (h.2.2.mpr (Or.inl (by decide +kernel))).2.2

/-- In the full layout the floating window 10 carries the letter `c`, the third of
the stack, but is the second candidate: its key selects nothing. -/
theorem pick_letter_shifted :
    let p := runEvents defaultConfig [.outputUpsert 1 ⟨0, 0, 800, 600⟩, .windowAdded 10,
      .actionRequested .toggleFloat, .windowAdded 20, .windowAdded 30,
      .actionRequested (.setLayout .full)] (initialPolicy defaultConfig)
    p.sessionLocked = false ∧ ('c', ⟨200, 150, 400, 300⟩, 10) ∈ pickerChoices p
      ∧ letters[2]? = some 'c'
      ∧ (handleEvent defaultConfig (.actionRequested (.pickCandidate 2))
        (handleEvent defaultConfig (.actionRequested .pick) p).1).1.windowSet.peek ≠ some 10 := by
  decide +kernel

/-! ## Labels over a run -/

/-- When key `i`, pressed in `p`, still means the window labelled `i` before. -/
def LabelSelects (p : Policy) (i : Nat) (wid : WindowId) : Prop :=
  if wid ∈ p.windowSet.index then
    (candidates p)[i]? = some wid ∧ p.windowSet.index.head? ≠ some wid
      ∨ Idle p i ∧ p.windowSet.peek = some wid
  else Idle p i

/-- After the key of entry `i` a window has the focus iff it is another candidate than the head
of the stack, or has the focus and the key does nothing. -/
theorem peek_pickCandidate_iff (cfg : Config) {p : Policy} (hs : p.windowSet.WellFormed)
    (hfree : p.sessionLocked = false) (i : Nat) (wid : WindowId) :
    (handleEvent cfg (.actionRequested (.pickCandidate i)) p).1.windowSet.peek = some wid
      ↔ (candidates p)[i]? = some wid ∧ p.windowSet.index.head? ≠ some wid
        ∨ Idle p i ∧ p.windowSet.peek = some wid := by
  obtain ⟨hidle, hmove⟩ := peek_pickCandidate cfg hs hfree i
  by_cases hi : Idle p i
  · rw [hidle hi]
    constructor
    · exact fun hp => Or.inr ⟨hi, hp⟩
    · rintro (⟨hc, hne⟩ | ⟨-, hp⟩)
      · rcases hi with hi | hi
        · rw [hc] at hi
          contradiction
        · exact absurd (hi.symm.trans hc) hne
      · exact hp
  · rw [(hmove hi).1]
    constructor
    · exact fun hc => Or.inl ⟨hc, fun hne => hi (Or.inr (hc.trans hne.symm))⟩
    · rintro (⟨hc, -⟩ | ⟨hi', -⟩)
      · exact hc
      · exact absurd hi' hi

/-- The key of entry `i` is a cancel exactly when it does nothing. -/
theorem pickCandidate_cancels_iff (cfg : Config) {p : Policy} (hs : p.windowSet.WellFormed)
    (hfree : p.sessionLocked = false) (i : Nat) :
    handleEvent cfg (.actionRequested (.pickCandidate i)) p
      = handleEvent cfg (.actionRequested .pickCancel) p ↔ Idle p i := by
  constructor
  · intro heq
    by_contra hi
    refine ((peek_pickCandidate cfg hs hfree i).2 hi).2 ?_
    have hws := congrArg (fun r : Policy × List Effect => r.1.windowSet)
      (heq.trans (handleEvent_pickCancel cfg hfree))
    exact hws.trans (frame_finish _ _).windowSet
  · intro hi
    have hi' : Idle (cancelPointer p) i := by
      rw [Idle, candidates_frame hs (frame_cancelPointer p)]
      exact hi
    have hfinish : (finishPicker i (cancelPointer p)).1
        = (cancelPicker (cancelPointer p)).1 := windowSet_finishPicker_of_idle hi'
    rw [handleEvent_pickCandidate cfg hfree, handleEvent_pickCancel cfg hfree, hfinish]

/-- What the key of entry `i` does to a window, when the picker is open. -/
theorem labelSelects_iff {cfg : Config} {p : Policy} (h : Reachable cfg p)
    (hopen : p.activeMode = .pickerMode) (i : Nat) (wid : WindowId) :
    let chosen := handleEvent cfg (.actionRequested (.pickCandidate i)) p
    (wid ∈ p.windowSet.index ∧ chosen.1.windowSet.peek = some wid
        ∨ wid ∉ p.windowSet.index ∧ chosen = handleEvent cfg (.actionRequested .pickCancel) p)
      ↔ LabelSelects p i wid := by
  intro chosen
  have hs := (managed_of_reachable h).wellFormed
  have hfree : p.sessionLocked = false := by
    cases hlock : p.sessionLocked with
    | false => rfl
    | true =>
        have hmode := normalMode_of_reachable h hlock
        rw [hopen] at hmode
        contradiction
  unfold LabelSelects
  by_cases hmem : wid ∈ p.windowSet.index
  · rw [if_pos hmem]
    simp only [hmem, true_and, not_true_eq_false, false_and, or_false]
    exact peek_pickCandidate_iff cfg hs hfree i wid
  · rw [if_neg hmem]
    simp only [hmem, false_and, not_false_eq_true, true_and, false_or]
    exact pickCandidate_cancels_iff cfg hs hfree i

/-- A step after which label `i` of a window is still right: the window stays or stays away, and
entry `i`, the head of the stack and, where the key does nothing, the focus are as before; or the
window goes and no candidate is left at its place. -/
inductive KeepsLabel (i : Nat) (wid : WindowId) (p p' : Policy) : Prop
  | stays : (wid ∈ p'.windowSet.index ↔ wid ∈ p.windowSet.index) →
      (candidates p')[i]? = (candidates p)[i]? →
      p'.windowSet.index.head? = p.windowSet.index.head? →
      (Idle p i → p'.windowSet.peek = p.windowSet.peek) → KeepsLabel i wid p p'
  | leaves : wid ∉ p'.windowSet.index → (candidates p').length ≤ i → KeepsLabel i wid p p'

/-- The step: a label that is right stays right. -/
theorem KeepsLabel.selects {i : Nat} {wid : WindowId} {p p' : Policy} (h : KeepsLabel i wid p p')
    (hp : LabelSelects p i wid) : LabelSelects p' i wid := by
  cases h with
  | leaves hgone hlen =>
      rw [LabelSelects, if_neg hgone]
      exact Or.inl (List.getElem?_eq_none_iff.mpr hlen)
  | stays hmem hentry hhead hpeek =>
      have hidle : Idle p' i ↔ Idle p i := by rw [Idle, Idle, hentry, hhead]
      unfold LabelSelects at hp ⊢
      by_cases hin : wid ∈ p.windowSet.index
      · rw [if_pos hin] at hp
        rw [if_pos (hmem.mpr hin), hentry, hhead]
        rcases hp with hp | ⟨hi, hp⟩
        · exact Or.inl hp
        · exact Or.inr ⟨hidle.mpr hi, (hpeek hi).trans hp⟩
      · rw [if_neg hin] at hp
        rw [if_neg (mt hmem.mp hin)]
        exact hidle.mpr hp

/-- The run: each step may rely on where in the run it is taken. -/
theorem labelSelects_runEvents (cfg : Config) {i : Nat} {wid : WindowId} {p : Policy}
    (hp : LabelSelects p i wid) {evs : List Event}
    (hsteps : ∀ earlier ev later, evs = earlier ++ ev :: later →
      KeepsLabel i wid (runEvents cfg earlier p) (step cfg (runEvents cfg earlier p) ev)) :
    LabelSelects (runEvents cfg evs p) i wid := by
  induction evs generalizing p with
  | nil => exact hp
  | cons ev evs ih =>
      refine ih ((hsteps [] ev evs rfl).selects hp) fun earlier ev' later heq => ?_
      exact hsteps (ev :: earlier) ev' later (congrArg (ev :: ·) heq)

/-- The label is right as the letters are shown, unless its window is at the head of the stack
without the focus. -/
theorem labelSelects_pick (cfg : Config) {p : Policy} (hs : p.windowSet.WellFormed)
    (hfree : p.sessionLocked = false) {i : Nat} {letter : Char} {rect : Rect} {wid : WindowId}
    (hlabel : (pickerChoices p)[i]? = some (letter, rect, wid))
    (hhead : p.windowSet.index.head? = some wid → p.windowSet.peek = some wid) :
    LabelSelects (step cfg p (.actionRequested .pick)) i wid := by
  obtain ⟨hws, -, hcand⟩ := step_pick cfg hs hfree
  have hentry : (candidates p)[i]? = some wid := by
    rw [← map_pickerChoices, List.getElem?_map, hlabel]
    rfl
  have hmem := mem_index_of_candidates (List.mem_of_getElem? hentry)
  rw [LabelSelects, Idle, hws, hcand, if_pos hmem, hentry]
  by_cases hfirst : p.windowSet.index.head? = some wid
  · exact Or.inr ⟨Or.inr hfirst.symm, hhead hfirst⟩
  · exact Or.inl ⟨rfl, hfirst⟩

/-- **Labels**: in every run whose steps all keep the label, the key of entry `i` focuses the
window the entry was drawn for, or cancels when it is gone from the workspace. -/
theorem pick_label_kept {cfg : Config} {p : Policy} (h : Reachable cfg p)
    (hfree : p.sessionLocked = false) {i : Nat} {letter : Char} {rect : Rect} {wid : WindowId}
    (hlabel : (pickerChoices p)[i]? = some (letter, rect, wid))
    (hhead : p.windowSet.index.head? = some wid → p.windowSet.peek = some wid)
    {evs : List Event}
    (hsteps : ∀ earlier ev later, evs = earlier ++ ev :: later →
      let q := runEvents cfg earlier (step cfg p (.actionRequested .pick))
      KeepsLabel i wid q (step cfg q ev))
    (hopen : (runEvents cfg evs (step cfg p (.actionRequested .pick))).activeMode = .pickerMode) :
    let p' := runEvents cfg evs (step cfg p (.actionRequested .pick))
    let chosen := handleEvent cfg (.actionRequested (.pickCandidate i)) p'
    wid ∈ p'.windowSet.index ∧ chosen.1.windowSet.peek = some wid
      ∨ wid ∉ p'.windowSet.index
        ∧ chosen = handleEvent cfg (.actionRequested .pickCancel) p' := by
  have hs := (managed_of_reachable h).wellFormed
  have hstart := labelSelects_pick cfg hs hfree hlabel hhead
  exact (labelSelects_iff ((h.event _).run evs) hopen i wid).mpr
    (labelSelects_runEvents cfg hstart hsteps)

/-- The focus moves while the letters are shown, then window 10, the last that is labelled, goes:
its key cancels. -/
theorem pick_label_kept_removed :
    let p := runEvents defaultConfig [.outputUpsert 1 ⟨0, 0, 800, 600⟩, .windowAdded 10,
      .windowAdded 20, .windowAdded 30] (initialPolicy defaultConfig)
    let p' := runEvents defaultConfig [.focusRequested 20, .windowRemoved 10]
      (step defaultConfig p (.actionRequested .pick))
    10 ∉ p'.windowSet.index ∧ handleEvent defaultConfig (.actionRequested (.pickCandidate 2)) p'
      = handleEvent defaultConfig (.actionRequested .pickCancel) p' := by
  intro p p'
  have hgone : 10 ∉ p'.windowSet.index := by decide +kernel
  have hlabel : (pickerChoices p)[2]? = some ('c', ⟨400, 300, 400, 300⟩, 10) := by decide +kernel
  have h := pick_label_kept (reachable_runEvents validateConfig_defaultConfig _)
    (by decide +kernel : p.sessionLocked = false) hlabel (by decide +kernel)
    (by
      intro earlier ev later heq
      rcases earlier with _ | ⟨e, _ | ⟨e', earlier⟩⟩
      · obtain ⟨rfl, -⟩ := List.cons.inj heq
        refine .stays (by decide +kernel) (by decide +kernel) (by decide +kernel) fun hidle => ?_
        exact absurd hidle (by unfold Idle; decide +kernel)
      · obtain ⟨rfl, htail⟩ := List.cons.inj heq
        obtain ⟨rfl, -⟩ := List.cons.inj htail
        exact .leaves (by decide +kernel) (by decide +kernel)
      · simp at heq)
    (by decide +kernel : p'.activeMode = .pickerMode)
  exact h.elim (fun hstill => absurd hstill.1 hgone) id

/-- A window added while the letters are shown takes over the key of its
predecessor: the letter drawn on window 20 selects window 30. -/
theorem pick_label_shifted :
    let p := runEvents defaultConfig [.outputUpsert 1 ⟨0, 0, 800, 600⟩, .windowAdded 10,
      .windowAdded 20, .windowAdded 30] (initialPolicy defaultConfig)
    let p' := runEvents defaultConfig [.windowAdded 40]
      (step defaultConfig p (.actionRequested .pick))
    (pickerChoices p)[1]?.map (fun e => e.2.2) = some 20 ∧ p'.activeMode = .pickerMode
      ∧ 20 ∈ p'.windowSet.index
      ∧ (handleEvent defaultConfig (.actionRequested (.pickCandidate 1)) p').1.windowSet.peek
        = some 30 := by
  decide +kernel

end XmonadWayland
