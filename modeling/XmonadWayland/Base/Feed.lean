import Mathlib.Data.List.Basic

/-!
# XmonadWayland.Base.Feed

Reading from a stream that arrives in segments.  A read of a number of elements takes what has
arrived, at most that many; it is repeated until all of them are there or the stream stops.
What is read depends on the elements only, not on the segments (`exact_cases`).
-/

namespace XmonadWayland

variable {α : Type}

/-- How a stream stops: it ends or reading fails. -/
inductive Stop where
  | ended | broken
deriving DecidableEq, Repr

/-- What arrives, segment by segment, and what then happens. -/
structure Feed (α : Type) where
  segments : List (List α)
  stop : Stop

namespace Feed

/-- All that arrives. -/
def elements (feed : Feed α) : List α := feed.segments.flatten

/-- Take from the first segment that is not empty. -/
def recvFrom (n : Nat) : List (List α) → List α × List (List α)
  | [] => ([], [])
  | [] :: segments => recvFrom n segments
  | (a :: segment) :: segments =>
    ((a :: segment).take n, (a :: segment).drop n :: segments)

/-- At most `n` elements; none if the stream has ended. -/
def recv (n : Nat) (feed : Feed α) : Except Stop (List α × Feed α) :=
  let (chunk, segments) := recvFrom n feed.segments
  if chunk = [] ∧ feed.stop = .broken then .error .broken
  else .ok (chunk, { feed with segments := segments })

/-- What is received and what is left are what there was. -/
theorem recvFrom_spec (n : Nat) (segments : List (List α)) :
    (recvFrom n segments).1 ++ (recvFrom n segments).2.flatten = segments.flatten
      ∧ (recvFrom n segments).1.length ≤ n
      ∧ (0 < n → (recvFrom n segments).1 = [] → segments.flatten = []) := by
  fun_induction recvFrom n segments with
  | case1 => exact ⟨rfl, Nat.zero_le n, fun _ _ => rfl⟩
  | case2 segments ih => exact ih
  | case3 a segment segments =>
      refine ⟨?_, List.length_take_le n _, fun hn hnil => ?_⟩
      · rw [List.flatten_cons, List.flatten_cons, ← List.append_assoc, List.take_append_drop]
      · obtain ⟨m, rfl⟩ := Nat.exists_eq_succ_of_ne_zero (Nat.pos_iff_ne_zero.mp hn)
        simp at hnil

/-- Read until `data` has `size` elements. -/
def exactFrom (size : Nat) (data : List α) (feed : Feed α) : Except Stop (List α × Feed α) :=
  if data.length < size then
    match feed.recv (size - data.length) with
    | .error stop => .error stop
    | .ok (chunk, rest) =>
      if hchunk : chunk = [] then .error .ended
      else
        have : 0 < chunk.length := List.length_pos_of_ne_nil hchunk
        exactFrom size (data ++ chunk) rest
  else .ok (data, feed)
termination_by size - data.length
decreasing_by
  rw [List.length_append]
  omega

/-- Exactly `size` elements. -/
def exact (size : Nat) (feed : Feed α) : Except Stop (List α × Feed α) := exactFrom size [] feed

/-- A read takes something, or the stream has stopped. -/
theorem recv_cases {n : Nat} (hn : 0 < n) (feed : Feed α) :
    (∃ chunk rest, feed.recv n = .ok (chunk, rest) ∧ chunk ≠ [] ∧ chunk.length ≤ n
        ∧ chunk ++ rest.elements = feed.elements ∧ rest.stop = feed.stop)
      ∨ feed.elements = [] ∧ (feed.stop = .broken ∧ feed.recv n = .error .broken
        ∨ feed.stop = .ended ∧ ∃ rest, feed.recv n = .ok ([], rest)) := by
  obtain ⟨hall, hlen, hnone⟩ := recvFrom_spec n feed.segments
  unfold recv
  simp only
  by_cases hchunk : (recvFrom n feed.segments).1 = []
  · right
    refine ⟨hnone hn hchunk, ?_⟩
    cases hstop : feed.stop with
    | broken => exact Or.inl ⟨rfl, if_pos ⟨hchunk, rfl⟩⟩
    | ended =>
        refine Or.inr ⟨rfl, { feed with segments := (recvFrom n feed.segments).2 }, ?_⟩
        rw [if_neg (by simp), hchunk, hstop]
  · left
    exact ⟨_, _, if_neg fun h => hchunk h.1, hchunk, hlen, hall, rfl⟩

/-- What an exact read gives is told by the elements alone. -/
theorem exactFrom_cases (size : Nat) (data : List α) (feed : Feed α) (h : data.length ≤ size) :
    (size ≤ (data ++ feed.elements).length ∧ ∃ rest,
        exactFrom size data feed = .ok ((data ++ feed.elements).take size, rest)
        ∧ rest.elements = (data ++ feed.elements).drop size ∧ rest.stop = feed.stop)
      ∨ (data ++ feed.elements).length < size ∧ exactFrom size data feed = .error feed.stop := by
  fun_induction exactFrom size data feed with
  | case1 data feed hlt stop hrecv =>
      rcases recv_cases (Nat.sub_pos_of_lt hlt) feed with ⟨chunk, rest, heq, -⟩
        | ⟨hnil, ⟨hstop, heq⟩ | ⟨-, rest, heq⟩⟩
      · rw [heq] at hrecv
        contradiction
      · rw [heq] at hrecv
        right
        rw [hnil, List.append_nil, hstop]
        exact ⟨hlt, congrArg Except.error (Except.error.inj hrecv).symm⟩
      · rw [heq] at hrecv
        contradiction
  | case2 data feed hlt rest hrecv =>
      rcases recv_cases (Nat.sub_pos_of_lt hlt) feed with ⟨chunk, rest', heq, hchunk, -⟩
        | ⟨hnil, ⟨-, heq⟩ | ⟨hstop, -⟩⟩
      · rw [heq] at hrecv
        exact absurd (Prod.mk.inj (Except.ok.inj hrecv)).1 hchunk
      · rw [heq] at hrecv
        contradiction
      · right
        rw [hnil, List.append_nil, hstop]
        exact ⟨hlt, rfl⟩
  | case3 data feed hlt chunk rest hrecv hchunk hpos ih =>
      rcases recv_cases (Nat.sub_pos_of_lt hlt) feed with
        ⟨chunk', rest', heq, -, hlen, helements, hstop⟩ | ⟨-, ⟨-, heq⟩ | ⟨-, rest', heq⟩⟩
      · rw [heq] at hrecv
        obtain ⟨rfl, rfl⟩ := Prod.mk.inj (Except.ok.inj hrecv)
        have hall : data ++ chunk' ++ rest'.elements = data ++ feed.elements := by
          rw [List.append_assoc, helements]
        have hfits : (data ++ chunk').length ≤ size := by
          rw [List.length_append]
          omega
        have hread := ih hfits
        rw [hall, hstop] at hread
        exact hread
      · rw [heq] at hrecv
        contradiction
      · rw [heq] at hrecv
        exact absurd (Prod.mk.inj (Except.ok.inj hrecv)).1.symm hchunk
  | case4 data feed hge =>
      left
      have hsize : size = data.length := by omega
      refine ⟨by rw [List.length_append]; omega, feed, ?_, ?_, rfl⟩
      · rw [hsize, List.take_left]
      · rw [hsize, List.drop_left]

/-- Enough elements are read and no more, or the reason why there are none is raised. -/
theorem exact_cases (size : Nat) (feed : Feed α) :
    (size ≤ feed.elements.length ∧ ∃ rest, feed.exact size = .ok (feed.elements.take size, rest)
        ∧ rest.elements = feed.elements.drop size ∧ rest.stop = feed.stop)
      ∨ feed.elements.length < size ∧ feed.exact size = .error feed.stop :=
  exactFrom_cases size [] feed (Nat.zero_le size)

end Feed

end XmonadWayland
