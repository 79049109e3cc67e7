import Mathlib.Data.List.Rotate
import XmonadWayland.Policy.Mode

/-!
# XmonadWayland.Policy.Cycling

Cycling through the outputs.  `focusOutput` sorts the displayed outputs by id and views the
workspace of the one `direction` places further, which reorders the screens but leaves each
as it is; so the sorted ids are the same in every step, and the current output runs through
them in a circle.
-/

namespace XmonadWayland

open StackSet

/-! ## The displayed outputs -/

/-- The displayed outputs, by ascending id. -/
def outputOrder (s : WindowSet) : List OutputId :=
  (s.screens.filterMap Screen.screen).insertionSort (· ≤ ·)

/-- The outputs in order are those that display something. -/
theorem mem_outputOrder {s : WindowSet} {oid : OutputId} :
    oid ∈ outputOrder s ↔ ∃ sc ∈ s.screens, sc.screen = some oid := by
  simp [outputOrder]

/-- Each output is displayed once. -/
theorem pairwise_outputOrder {s : WindowSet} (hs : s.WellFormed) :
    (outputOrder s).Pairwise (· < ·) := by
  have hids : (s.screens.filterMap Screen.screen).Nodup := by
    refine List.Nodup.of_map some (List.Nodup.sublist ?_ hs.screens_nodup)
    rw [List.map_filterMap]
    induction s.screens with
    | nil => exact List.Sublist.refl _
    | cons sc rest ih =>
        cases hid : sc.screen with
        | none => simpa [hid] using ih.cons none
        | some oid => simpa [hid] using ih
  have hperm := List.perm_insertionSort (· ≤ ·) (s.screens.filterMap Screen.screen)
  exact (List.sortedLE_insertionSort.sortedLT_of_nodup (hperm.nodup_iff.mpr hids)).pairwise

/-- Reordering the screens does not reorder the outputs. -/
theorem outputOrder_of_perm {s s' : WindowSet} (h : s'.screens.Perm s.screens) :
    outputOrder s' = outputOrder s := by
  refine List.Perm.eq_of_sortedLE List.sortedLE_insertionSort List.sortedLE_insertionSort ?_
  refine (List.perm_insertionSort _ _).trans (List.Perm.trans ?_ (List.perm_insertionSort _ _).symm)
  exact h.filterMap _

/-- The screens `focusOutput` chooses from. -/
theorem screens_focusOutput (s : WindowSet) :
    (((s.screens.filter fun sc => sc.screen ≠ none).insertionSort
      fun a b => a.screen.getD 0 ≤ b.screen.getD 0).map Screen.screen)
        = (outputOrder s).map some := by
  have hids : (s.screens.filter fun sc => sc.screen ≠ none).map (fun sc => sc.screen.getD 0)
      = s.screens.filterMap Screen.screen := by
    induction s.screens with
    | nil => rfl
    | cons sc rest ih => cases hid : sc.screen <;> simp [hid, ← ih]
  have hsort := List.map_insertionSort (fun a b : OutputScreen => a.screen.getD 0 ≤ b.screen.getD 0)
    (· ≤ ·) (fun sc => sc.screen.getD 0) (s.screens.filter fun sc => sc.screen ≠ none)
    fun _ _ _ _ => Iff.rfl
  rw [outputOrder, ← hids, ← hsort, List.map_map]
  refine List.map_congr_left fun sc hsc => ?_
  have hmem := List.mem_filter.mp ((List.mem_insertionSort _).mp hsc)
  cases hid : sc.screen with
  | none => simp [hid] at hmem
  | some oid => simp [hid]

/-! ## One step -/

/-- Where the current output stands among the displayed ones. -/
def OutputAt (s : WindowSet) (i : Nat) : Prop :=
  ∃ oid, s.current.screen = some oid ∧ (outputOrder s)[i]? = some oid

/-- The current output has a place in the order. -/
theorem exists_outputAt {s : WindowSet} {oid : OutputId} (h : s.current.screen = some oid) :
    ∃ i, OutputAt s i := by
  obtain ⟨i, hi⟩ := List.mem_iff_getElem?.mp (mem_outputOrder.mpr ⟨_, s.current_mem_screens, h⟩)
  exact ⟨i, oid, h, hi⟩

/-- A policy that displays an output has a current one: the virtual screen stands alone. -/
theorem exists_outputAt_of_match {outputs : Map OutputId Rect} {s : WindowSet}
    (hm : ScreensMatch outputs s) (hne : outputOrder s ≠ []) : ∃ i, OutputAt s i := by
  by_cases he : outputs.isEmpty
  · obtain ⟨oid, hoid⟩ := List.exists_mem_of_ne_nil _ hne
    obtain ⟨sc, hsc, hid⟩ := mem_outputOrder.mp hoid
    have hnone : sc.screen ∈ s.screens.map Screen.screen := List.mem_map_of_mem hsc
    rw [hm.virtual he, hid] at hnone
    simp at hnone
  · obtain ⟨oid, hid, -⟩ := hm.live he s.current s.current_mem_screens
    exact exists_outputAt hid

/-- The place `d` places further in a circle of `n`. -/
def turnBy (n i : Nat) (d : Int) : Nat := ((i + d) % n).toNat

/-- A turn stays within the order. -/
theorem turnBy_lt {n i : Nat} (h : 0 < n) (d : Int) : turnBy n i d < n := by
  have hlt := Int.emod_lt_of_pos ((i : Int) + d) (Int.natCast_pos.mpr h)
  have hnonneg := Int.emod_nonneg ((i : Int) + d) (Int.natCast_ne_zero.mpr h.ne')
  rw [turnBy]
  omega

/-- One step goes to the next output, or around. -/
theorem turnBy_one (n i : Nat) : turnBy n i 1 = (i + 1) % n := by
  rw [turnBy, ← Nat.cast_succ, ← Int.natCast_mod, Int.toNat_natCast]

/-- Forth and back. -/
theorem turnBy_neg {n i : Nat} (h : i < n) : turnBy n (turnBy n i 1) (-1) = i := by
  have hnonneg := Int.emod_nonneg ((i : Int) + 1) (Int.natCast_ne_zero.mpr (by omega : n ≠ 0))
  rw [turnBy, turnBy, Int.toNat_of_nonneg hnonneg, Int.emod_add_emod]
  rw [Int.emod_eq_of_lt (by omega) (by omega)]
  omega

/-- The next output becomes current; all screens stay as they are. -/
theorem focusOutput_outputAt {s : WindowSet} (hs : s.WellFormed) {i : Nat} (h : OutputAt s i)
    (d : Int) :
    (focusOutput d s).screens.Perm s.screens
      ∧ OutputAt (focusOutput d s) (turnBy (outputOrder s).length i d) := by
  obtain ⟨oid, hcur, hi⟩ := h
  obtain ⟨hlt, hget⟩ := List.getElem?_eq_some_iff.mp hi
  have hidx : ((outputOrder s).map some).idxOf? s.current.screen = some i := by
    rw [hcur, List.idxOf?_eq_some_iff]
    refine ⟨by rwa [List.length_map], by rw [List.getElem_map, hget], fun j hj => ?_⟩
    rw [List.getElem_map, ← hget, Option.some.injEq]
    exact (List.pairwise_iff_getElem.mp (pairwise_outputOrder hs) j i _ hlt hj).ne
  have hmap := screens_focusOutput s
  have hmem : ∀ sc ∈ (s.screens.filter fun sc => sc.screen ≠ none).insertionSort
      (fun a b => a.screen.getD 0 ≤ b.screen.getD 0), sc ∈ s.screens := fun sc hsc =>
    (List.mem_filter.mp ((List.mem_insertionSort _).mp hsc)).1
  unfold focusOutput
  simp only [screens_focusOutput, hidx]
  generalize (s.screens.filter fun sc => sc.screen ≠ none).insertionSort
    (fun a b => a.screen.getD 0 ≤ b.screen.getD 0) = screens at hmap hmem ⊢
  have hlen : screens.length = (outputOrder s).length := by simpa using congrArg List.length hmap
  have hturn : turnBy screens.length i d < screens.length := turnBy_lt (by omega) d
  have hsc := List.getElem?_eq_getElem hturn
  generalize screens[turnBy screens.length i d] = sc at hsc
  have hid := congrArg (fun l => l[turnBy screens.length i d]?) hmap
  simp only [List.getElem?_map, hsc, Option.map_some] at hid
  obtain ⟨oid', hoid', hscreen⟩ := Option.map_eq_some_iff.mp hid.symm
  rw [turnBy] at hsc
  simp only [hsc]
  have hperm := screens_view_perm hs (hmem sc (List.mem_of_getElem? hsc))
  refine ⟨hperm, oid', ?_, ?_⟩
  · rw [current_view hs (hmem sc (List.mem_of_getElem? hsc)), ← hscreen]
  · rw [outputOrder_of_perm hperm, ← hlen, hoid']

/-- Without a displayed output nothing happens. -/
theorem focusOutput_of_nil {s : WindowSet} (h : outputOrder s = []) (d : Int) :
    focusOutput d s = s := by
  have hmap := screens_focusOutput s
  rw [h, List.map_nil] at hmap
  unfold focusOutput
  simp only [hmap, List.idxOf?_nil]

/-! ## The circle -/

/-- The policy after `n` times focusing the next output. -/
def cycled (cfg : Config) (p : Policy) : Nat → Policy
  | 0 => p
  | n + 1 => step cfg (cycled cfg p n) (.actionRequested .focusNextOutput)

/-- What cycling keeps. -/
structure Cycling (cfg : Config) (p q : Policy) : Prop where
  reachable : Reachable cfg q
  unlocked : Open q
  screens : q.windowSet.screens.Perm p.windowSet.screens

/-- The window set stays well formed. -/
theorem Cycling.wellFormed {cfg : Config} {p q : Policy} (h : Cycling cfg p q) :
    q.windowSet.WellFormed := (managed_of_reachable h.reachable).wellFormed

/-- The order of the outputs stays the same. -/
theorem Cycling.outputOrder {cfg : Config} {p q : Policy} (h : Cycling cfg p q) :
    outputOrder q.windowSet = outputOrder p.windowSet := outputOrder_of_perm h.screens

/-- A step turns to the next output in its direction. -/
theorem Cycling.turn {cfg : Config} {p q : Policy} (h : Cycling cfg p q) {action : Action} {d : Int}
    (haction : action.isModal = false)
    (hset : (step cfg q (.actionRequested action)).windowSet = focusOutput d q.windowSet) {i : Nat}
    (hi : OutputAt q.windowSet i) :
    Cycling cfg p (step cfg q (.actionRequested action))
      ∧ OutputAt (step cfg q (.actionRequested action)).windowSet
        (turnBy (XmonadWayland.outputOrder p.windowSet).length i d) := by
  obtain ⟨hperm, hat⟩ := focusOutput_outputAt h.wellFormed hi d
  rw [← hset] at hperm hat
  rw [h.outputOrder] at hat
  exact ⟨⟨.event _ h.reachable, h.unlocked.step cfg haction, hperm.trans h.screens⟩, hat⟩

/-- After `n` steps the current output is `n` places further. -/
theorem cycling_cycled {cfg : Config} {p : Policy} (h : Reachable cfg p) (hopen : Open p) {i : Nat}
    (hi : OutputAt p.windowSet i) (n : Nat) :
    Cycling cfg p (cycled cfg p n)
      ∧ OutputAt (cycled cfg p n).windowSet ((i + n) % (outputOrder p.windowSet).length) := by
  obtain ⟨oid, hcur, hget⟩ := hi
  induction n with
  | zero =>
      refine ⟨⟨h, hopen, List.Perm.refl _⟩, oid, hcur, ?_⟩
      rwa [Nat.add_zero, Nat.mod_eq_of_lt (List.getElem?_eq_some_iff.mp hget).1]
  | succ n ih =>
      have hset := windowSet_step_action cfg .focusNextOutput ih.1.unlocked
      obtain ⟨hcycling, hat⟩ := ih.1.turn rfl hset ih.2
      rw [turnBy_one, Nat.mod_add_mod] at hat
      exact ⟨hcycling, hat⟩

/-- The same output is the same screen. -/
theorem Cycling.current_eq {cfg : Config} {p q : Policy} (h : Cycling cfg p q) {i : Nat}
    (hp : OutputAt p.windowSet i) (hq : OutputAt q.windowSet i) :
    q.windowSet.current = p.windowSet.current := by
  obtain ⟨oid, hcur, hget⟩ := hp
  obtain ⟨oid', hcur', hget'⟩ := hq
  rw [h.outputOrder, hget] at hget'
  have hmem := h.screens.mem_iff.mpr p.windowSet.current_mem_screens
  exact List.inj_on_of_nodup_map h.wellFormed.screens_nodup q.windowSet.current_mem_screens hmem
    (by rw [hcur, hcur', hget'])

/-- **Cycling through the outputs**: `n` steps visit the `n` displayed outputs by ascending id
and return to where they started, one step back undoes one step forth, and each screen
stays as it is.  Without a displayed output nothing happens. -/
theorem output_cycle {cfg : Config} {p : Policy} (h : Reachable cfg p) (hopen : Open p) :
    let ids := outputOrder p.windowSet
    let next := Event.actionRequested .focusNextOutput
    let previous := Event.actionRequested .focusPreviousOutput
    (ids = [] → (step cfg p next).windowSet = p.windowSet
        ∧ (step cfg p previous).windowSet = p.windowSet)
      ∧ (ids ≠ [] → ids.Pairwise (· < ·)
        ∧ (∀ oid, oid ∈ ids ↔ ∃ sc ∈ p.windowSet.screens, sc.screen = some oid)
        ∧ (∃ i, focusedOutput p = ids[i]?
          ∧ (List.range ids.length).map (fun k => focusedOutput (cycled cfg p (k + 1)))
            = (ids.rotate (i + 1)).map some)
        ∧ (∀ k, (cycled cfg p k).windowSet.screens.Perm p.windowSet.screens)
        ∧ (cycled cfg p ids.length).windowSet.current = p.windowSet.current
        ∧ (step cfg (step cfg p next) previous).windowSet.current = p.windowSet.current
        ∧ (step cfg (step cfg p next) previous).windowSet.screens.Perm p.windowSet.screens) := by
  intro ids next previous
  have hs := (managed_of_reachable h).wellFormed
  have hnext := windowSet_step_action cfg .focusNextOutput hopen
  refine ⟨fun hnil => ?_, fun hne => ?_⟩
  · have hprevious := windowSet_step_action cfg .focusPreviousOutput hopen
    exact ⟨hnext.trans (focusOutput_of_nil hnil 1), hprevious.trans (focusOutput_of_nil hnil (-1))⟩
  · obtain ⟨i, hi⟩ := exists_outputAt_of_match (managed_of_reachable h).screens hne
    have hlt : i < ids.length := by
      obtain ⟨oid, -, hget⟩ := hi
      exact (List.getElem?_eq_some_iff.mp hget).1
    have hrun := cycling_cycled h hopen hi
    refine ⟨pairwise_outputOrder hs, fun oid => mem_outputOrder, ⟨i, ?_, ?_⟩,
      fun k => (hrun k).1.screens, ?_, ?_⟩
    · obtain ⟨oid, hcur, hget⟩ := hi
      exact hcur.trans hget.symm
    · refine List.ext_getElem (by simp [ids]) fun k hk _ => ?_
      rw [List.length_map, List.length_range] at hk
      obtain ⟨oid, hcur, hget⟩ := (hrun (k + 1)).2
      rw [(hrun (k + 1)).1.outputOrder, Nat.add_left_comm, ← List.getElem?_rotate hk] at hget
      obtain ⟨hlt', hget'⟩ := List.getElem?_eq_some_iff.mp hget
      rw [List.getElem_map, List.getElem_map, List.getElem_range, focusedOutput, hcur, hget']
    · refine (hrun ids.length).1.current_eq hi ?_
      have hat := (hrun ids.length).2
      rwa [Nat.add_mod_right, Nat.mod_eq_of_lt hlt] at hat
    · obtain ⟨hcycling, hat⟩ := (hrun 0).1.turn rfl hnext hi
      have hset := windowSet_step_action cfg .focusPreviousOutput hcycling.unlocked
      obtain ⟨hback, hat'⟩ := hcycling.turn rfl hset hat
      rw [turnBy_neg hlt] at hat'
      exact ⟨hback.current_eq hi hat', hback.screens⟩

/-- From the second of three outputs over the third back to the first. -/
theorem output_cycle_three :
    let p := runEvents defaultConfig [.outputUpsert 5 ⟨0, 0, 200, 100⟩,
      .outputUpsert 2 ⟨200, 0, 200, 100⟩, .outputUpsert 9 ⟨400, 0, 200, 100⟩]
      (initialPolicy defaultConfig)
    (List.range 3).map (fun k => focusedOutput (cycled defaultConfig p (k + 1)))
      = [some 9, some 2, some 5] := by
  intro p
  have hreach : Reachable defaultConfig p := reachable_runEvents validateConfig_defaultConfig _
  have hopen : Open p := ⟨by decide +kernel, by decide +kernel⟩
  have hids : outputOrder p.windowSet = [2, 5, 9] := by decide +kernel
  obtain ⟨i, hcur, hrun⟩ := ((output_cycle hreach hopen).2 (by simp [hids])).2.2.1
  have hfocused : focusedOutput p = some 5 := by decide +kernel
  rw [hids] at hcur hrun
  have hi : i = 1 := by
    rw [hfocused] at hcur
    match i with
    | 0 => simp at hcur
    | 1 => rfl
    | 2 => simp at hcur
    | i + 3 => simp at hcur
  rw [hi] at hrun
  exact hrun

end XmonadWayland
