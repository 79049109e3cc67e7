import XmonadWayland.Types

/-!
# XmonadWayland.Base.Maps

Finite maps as the policy uses them: lookups after the operations of
`Data.Map.Strict`, with keys compared by equality, and maps built from lists.
-/

namespace XmonadWayland

open Std

variable {κ α β : Type} [Ord κ] [TransOrd κ]

/-! ## Membership -/

/-- Keys are those with an entry. -/
theorem mem_map_iff {m : Map κ α} {k : κ} : k ∈ m ↔ ∃ v, m[k]? = some v := by
  rw [ExtTreeMap.mem_iff_isSome_getElem?, Option.isSome_iff_exists]

/-! ## Lookups -/

section Lookup

variable [LawfulEqOrd κ]

/-- Looking up after a filter. -/
theorem getElem?_map_filter (m : Map κ α) (k : κ) (f : κ → α → Bool) :
    (m.filter f)[k]? = m[k]?.filter (f k) := by
  simp [ExtTreeMap.getElem?_filter, Option.pfilter_eq_filter]

/-- A filter that every entry passes changes nothing. -/
theorem map_filter_eq_self {m : Map κ α} {f : κ → α → Bool}
    (h : ∀ (k : κ) (v : α), m[k]? = some v → f k v) : m.filter f = m := by
  apply ExtTreeMap.ext_getElem?
  intro k
  rw [getElem?_map_filter]
  cases hk : m[k]? with
  | none => rfl
  | some v => simp [h k v hk]

/-- With distinct keys, every entry is found. -/
theorem getElem?_map_ofList_of_mem {l : List (κ × α)} {k : κ} {v : α}
    (hnd : (l.map Prod.fst).Nodup) (h : (k, v) ∈ l) :
    (ExtTreeMap.ofList l compare)[k]? = some v := by
  apply ExtTreeMap.getElem?_ofList_of_mem (k := k) ReflOrd.compare_self _ h
  rw [List.Nodup, List.pairwise_map] at hnd
  exact hnd.imp fun hne heq => hne (LawfulEqOrd.eq_of_compare heq)

end Lookup

section Update

variable [LawfulEqOrd κ] [DecidableEq κ]

/-- Looking up after an insertion. -/
theorem getElem?_map_insert (m : Map κ α) (k k' : κ) (v : α) :
    (m.insert k v)[k']? = if k = k' then some v else m[k']? := by
  simp [ExtTreeMap.getElem?_insert]

/-- Inserting what is there. -/
theorem map_insert_self {m : Map κ α} {k : κ} {v : α} (h : m[k]? = some v) : m.insert k v = m := by
  refine ExtTreeMap.ext_getElem? fun k' => ?_
  rw [getElem?_map_insert]
  split
  · next hk => rw [← hk, h]
  · rfl

/-- Looking up after a removal. -/
theorem getElem?_map_erase (m : Map κ α) (k k' : κ) :
    (m.erase k)[k']? = if k = k' then none else m[k']? := by
  simp [ExtTreeMap.getElem?_erase]

/-- Looking up after a modification. -/
theorem getElem?_map_modify (m : Map κ α) (k k' : κ) (f : α → α) :
    (m.modify k f)[k']? = if k = k' then m[k']?.map f else m[k']? := by
  rw [ExtTreeMap.getElem?_modify]
  by_cases h : k = k'
  · subst h; simp
  · simp [h]

/-- The last entry of a list wins. -/
theorem getElem?_map_ofList (l : List (κ × α)) (k : κ) :
    (ExtTreeMap.ofList l compare)[k]? =
      l.findSomeRev? fun e => if e.1 = k then some e.2 else none := by
  have : LawfulBEqOrd κ := inferInstance
  rw [ExtTreeMap.ofList_eq_insertMany_empty, ExtTreeMap.getElem?_insertMany_list]
  simp

/-- Mapping the values of a list maps the lookups of the map built from it. -/
theorem getElem?_map_ofList_map (l : List (κ × α)) (f : α → β) (k : κ) :
    (ExtTreeMap.ofList (l.map fun e => (e.1, f e.2)) compare)[k]? =
      (ExtTreeMap.ofList l compare)[k]?.map f := by
  rw [getElem?_map_ofList, getElem?_map_ofList, List.findSomeRev?_eq_findSome?_reverse,
    List.findSomeRev?_eq_findSome?_reverse, ← List.map_reverse, List.findSome?_map,
    List.map_findSome?]
  congr 1
  funext e
  by_cases h : e.1 = k <;> simp [h]

/-- A lookup returns an entry of the list. -/
theorem mem_of_getElem?_map_ofList {l : List (κ × α)} {k : κ} {v : α}
    (h : (ExtTreeMap.ofList l compare)[k]? = some v) : (k, v) ∈ l := by
  rw [getElem?_map_ofList, List.findSomeRev?_eq_findSome?_reverse] at h
  obtain ⟨e, he, hv⟩ := List.exists_of_findSome?_eq_some h
  split at hv
  · next hk =>
    rw [← hk, ← Option.some.inj hv]
    exact List.mem_reverse.mp he
  · contradiction

/-- With distinct keys, a map built from a list has the list's entries. -/
theorem getElem?_map_ofList_eq_some {l : List (κ × α)} {k : κ} {v : α}
    (hnd : (l.map Prod.fst).Nodup) :
    (ExtTreeMap.ofList l compare)[k]? = some v ↔ (k, v) ∈ l :=
  ⟨mem_of_getElem?_map_ofList, getElem?_map_ofList_of_mem hnd⟩

end Update

end XmonadWayland
