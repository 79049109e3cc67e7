import XmonadWayland.Base.Feed
import XmonadWayland.Nested.State

/-!
# XmonadWayland.Nested.Ipc

Frames of Sway's IPC, as the helper reads them: magic, size and kind in the machine's byte
order, then JSON.  However the bytes are cut into segments, the helper reads what the frames say,
nothing of the next frame, and accepts frames only.
-/

namespace XmonadWayland.Nested

/-! ## Headers -/

inductive ByteOrder where
  | little | big
deriving DecidableEq, Repr

/-- From little endian and back. -/
def ByteOrder.arrange (order : ByteOrder) (bytes : List UInt8) : List UInt8 :=
  match order with
  | .little => bytes
  | .big => bytes.reverse

/-- `I` of `struct`. -/
def packWord (order : ByteOrder) (n : Nat) : List UInt8 :=
  order.arrange [UInt8.ofNat n, UInt8.ofNat (n / 256), UInt8.ofNat (n / 65536),
    UInt8.ofNat (n / 16777216)]

def wordOf : List UInt8 → Nat
  | [] => 0
  | b :: bytes => b.toNat + 256 * wordOf bytes

def unpackWord (order : ByteOrder) (bytes : List UInt8) : Nat := wordOf (order.arrange bytes)

/-- A word has four bytes. -/
theorem length_packWord (order : ByteOrder) (n : Nat) : (packWord order n).length = 4 := by
  cases order <;> rfl

/-- Arranging twice changes nothing. -/
theorem arrange_arrange (order : ByteOrder) (bytes : List UInt8) :
    order.arrange (order.arrange bytes) = bytes := by
  cases order with
  | little => rfl
  | big => exact List.reverse_reverse bytes

/-- A word that fits is read as it was written. -/
theorem unpackWord_packWord (order : ByteOrder) {n : Nat} (h : n < 2 ^ 32) :
    unpackWord order (packWord order n) = n := by
  rw [unpackWord, packWord, arrange_arrange]
  simp only [wordOf, UInt8.toNat_ofNat']
  omega

/-- Only the lower 32 bits are written. -/
theorem packWord_mod (order : ByteOrder) (n : Nat) :
    packWord order (n % 2 ^ 32) = packWord order n := by
  refine congrArg order.arrange ?_
  simp only [List.cons.injEq, ← UInt8.toNat_inj, UInt8.toNat_ofNat', and_true]
  omega

/-- Four bytes are the word they say. -/
theorem packWord_unpackWord (order : ByteOrder) {bytes : List UInt8} (h : bytes.length = 4) :
    packWord order (unpackWord order bytes) = bytes := by
  have hlittle : ∀ bytes : List UInt8, bytes.length = 4 → [UInt8.ofNat (wordOf bytes),
      UInt8.ofNat (wordOf bytes / 256), UInt8.ofNat (wordOf bytes / 65536),
      UInt8.ofNat (wordOf bytes / 16777216)] = bytes := by
    intro bytes h
    obtain ⟨a, b, c, d, rfl⟩ := List.length_eq_four.mp h
    have hbound := fun x : UInt8 => UInt8.toNat_lt x
    simp only [wordOf, List.cons.injEq, ← UInt8.toNat_inj, UInt8.toNat_ofNat', and_true]
    have ha := hbound a
    have hb := hbound b
    have hc := hbound c
    have hd := hbound d
    omega
  have hlength : (order.arrange bytes).length = 4 := by
    cases order with
    | little => exact h
    | big => exact (List.length_reverse).trans h
  rw [packWord, unpackWord, hlittle _ hlength, arrange_arrange]

/-! ## Frames -/

/-- `b"i3-ipc"` -/
def magic : List UInt8 := [105, 51, 45, 105, 112, 99]

def maxMessage : Nat := 16 * 1024 * 1024

structure Frame where
  kind : Nat
  data : List UInt8

/-- A frame that can be sent and will be read. -/
structure Frame.Valid (frame : Frame) : Prop where
  kind : frame.kind < 2 ^ 32
  data : frame.data.length ≤ maxMessage

/-- `HEADER.pack` -/
def header (order : ByteOrder) (size kind : Nat) : List UInt8 :=
  magic ++ packWord order size ++ packWord order kind

/-- The header and the data. -/
def Frame.encode (order : ByteOrder) (frame : Frame) : List UInt8 :=
  header order frame.data.length frame.kind ++ frame.data

/-- What is raised; `run` does not catch what is `uncaught`. -/
inductive Error where
  | os
  | ipc (message : String)
  | uncaught
deriving DecidableEq, Repr

def raised : Stop → Error
  | .ended => .ipc "Sway IPC disconnected"
  | .broken => .os

/-- What `json.loads` raises: a `ValueError`, or something that `receive` does not catch, such as
the `RecursionError` of deeply nested data. -/
inductive LoadError where
  | value | other
deriving DecidableEq, Repr

def LoadError.raised : LoadError → Error
  | .value => .ipc "invalid Sway IPC JSON"
  | .other => .uncaught

variable {J : Type}

/-- Receive the data of a message; `loads` is the JSON parser. -/
def receiveData (loads : List UInt8 → Except LoadError J) (size kind : Nat) (sock : Feed UInt8) :
    Except Error ((Nat × J) × Feed UInt8) :=
  match sock.exact size with
  | .error stop => .error (raised stop)
  | .ok (data, sock) => match loads data with
    | .error error => .error error.raised
    | .ok payload => .ok ((kind, payload), sock)

/-- Receive one message. -/
def receive (order : ByteOrder) (loads : List UInt8 → Except LoadError J) (sock : Feed UInt8) :
    Except Error ((Nat × J) × Feed UInt8) :=
  match sock.exact 14 with
  | .error stop => .error (raised stop)
  | .ok (read, sock) =>
    let size := unpackWord order ((read.drop 6).take 4)
    let kind := unpackWord order (read.drop 10)
    if read.take 6 ≠ magic ∨ maxMessage < size then .error (.ipc "invalid Sway IPC frame")
    else receiveData loads size kind sock

/-! ## One message -/

/-- A header has fourteen bytes. -/
theorem length_header (order : ByteOrder) (size kind : Nat) :
    (header order size kind).length = 14 := by
  simp only [header, List.length_append, length_packWord]
  rfl

/-- It starts with the magic. -/
theorem take_header (order : ByteOrder) (size kind : Nat) :
    (header order size kind).take 6 = magic := by
  cases order <;> rfl

/-- Then comes the size. -/
theorem size_header (order : ByteOrder) (size kind : Nat) :
    ((header order size kind).drop 6).take 4 = packWord order size := by
  cases order <;> rfl

/-- The kind comes last. -/
theorem kind_header (order : ByteOrder) (size kind : Nat) :
    (header order size kind).drop 10 = packWord order kind := by
  cases order <;> rfl

/-- Fourteen bytes that start with the magic are a header. -/
theorem header_of_magic (order : ByteOrder) {read : List UInt8} (hlength : read.length = 14)
    (hmagic : read.take 6 = magic) :
    header order (unpackWord order ((read.drop 6).take 4)) (unpackWord order (read.drop 10))
      = read := by
  have hsize : ((read.drop 6).take 4).length = 4 := by simp [hlength]
  have hkind : (read.drop 10).length = 4 := by simp [hlength]
  have hrest : (read.drop 6).drop 4 = read.drop 10 := List.drop_drop
  rw [header, packWord_unpackWord order hsize, packWord_unpackWord order hkind, ← hmagic, ← hrest,
    List.append_assoc, List.take_append_drop, List.take_append_drop]

variable {order : ByteOrder} {loads : List UInt8 → Except LoadError J} {sock : Feed UInt8}

/-- A header is read, and nothing after it. -/
theorem receive_header {size : Nat} (kind : Nat) {rest : List UInt8} (hsize : size ≤ maxMessage)
    (h : sock.elements = header order size kind ++ rest) :
    ∃ sock', sock'.elements = rest ∧ sock'.stop = sock.stop ∧ receive order loads sock
      = receiveData loads size (unpackWord order (packWord order kind)) sock' := by
  have hlt : size < 2 ^ 32 := by
    unfold maxMessage at hsize
    omega
  have hlength := length_header order size kind
  rcases sock.exact_cases 14 with ⟨-, sock', hread, hrest, hstop⟩ | ⟨hshort, -⟩
  · rw [h, List.take_left' hlength] at hread
    rw [h, List.drop_left' hlength] at hrest
    refine ⟨sock', hrest, hstop, ?_⟩
    unfold receive
    rw [hread]
    dsimp only
    rw [take_header, size_header, kind_header, unpackWord_packWord order hlt]
    exact if_neg (by simpa using hsize)
  · rw [h, List.length_append, hlength] at hshort
    omega

/-- The data are read, and nothing after them. -/
theorem exact_data {data rest : List UInt8} (h : sock.elements = data ++ rest) :
    ∃ sock', sock'.elements = rest ∧ sock'.stop = sock.stop
      ∧ sock.exact data.length = .ok (data, sock') := by
  rcases sock.exact_cases data.length with ⟨-, sock', hread, hrest, hstop⟩ | ⟨hshort, -⟩
  · rw [h, List.take_left] at hread
    rw [h, List.drop_left] at hrest
    exact ⟨sock', hrest, hstop, hread⟩
  · rw [h, List.length_append] at hshort
    omega

/-- Why no message can be read. -/
inductive Refused (order : ByteOrder) (loads : List UInt8 → Except LoadError J)
    (bytes : List UInt8) (stop : Stop) : Error → Prop
  | short : bytes.length < 14 → Refused order loads bytes stop (raised stop)
  | unframed : 14 ≤ bytes.length →
      (∀ size kind, size ≤ maxMessage → ¬header order size kind <+: bytes) →
      Refused order loads bytes stop (.ipc "invalid Sway IPC frame")
  | cut (size kind : Nat) (rest : List UInt8) : size ≤ maxMessage →
      bytes = header order size kind ++ rest → rest.length < size →
      Refused order loads bytes stop (raised stop)
  | unparsed (frame : Frame) (rest : List UInt8) (error : LoadError) : frame.Valid →
      bytes = frame.encode order ++ rest → loads frame.data = .error error →
      Refused order loads bytes stop error.raised

/-- A frame whose data parse is received, and nothing after it. -/
theorem receive_frame {frame : Frame} {payload : J} {rest : List UInt8} (hvalid : frame.Valid)
    (hloads : loads frame.data = .ok payload) (h : sock.elements = frame.encode order ++ rest) :
    ∃ sock', sock'.elements = rest ∧ sock'.stop = sock.stop
      ∧ receive order loads sock = .ok ((frame.kind, payload), sock') := by
  rw [Frame.encode, List.append_assoc] at h
  obtain ⟨sock₁, hdata, hstop₁, hreceive⟩ := receive_header frame.kind hvalid.data h
  obtain ⟨sock', hrest, hstop, hread⟩ := exact_data hdata
  refine ⟨sock', hrest, hstop.trans hstop₁, ?_⟩
  rw [hreceive, unpackWord_packWord order hvalid.kind, receiveData, hread]
  dsimp only
  rw [hloads]

/-- What is refused is raised. -/
theorem receive_refused {error : Error} (h : Refused order loads sock.elements sock.stop error) :
    receive order loads sock = .error error := by
  cases h with
  | short hlength =>
      rcases sock.exact_cases 14 with ⟨hlong, -⟩ | ⟨-, hread⟩
      · omega
      · rw [receive, hread]
  | unframed hlength hnone =>
      rcases sock.exact_cases 14 with ⟨-, sock', hread, -⟩ | ⟨hshort, -⟩
      · have htake : (sock.elements.take 14).length = 14 := List.length_take_of_le hlength
        rw [receive, hread]
        refine if_pos (or_iff_not_imp_left.mpr fun hmagic => Nat.lt_of_not_le fun hsize => ?_)
        have hprefix := List.take_prefix 14 sock.elements
        rw [← header_of_magic order htake (not_not.mp hmagic)] at hprefix
        exact hnone _ _ hsize hprefix
      · omega
  | cut size kind rest hsize heq hshort =>
      obtain ⟨sock', hrest, hstop, hreceive⟩ := receive_header kind hsize heq
      rcases sock'.exact_cases size with ⟨hlong, -⟩ | ⟨-, hread⟩
      · rw [hrest] at hlong
        omega
      · rw [hreceive, receiveData, hread, hstop]
  | unparsed frame rest error hvalid heq hloads =>
      rw [Frame.encode, List.append_assoc] at heq
      obtain ⟨sock₁, hdata, -, hreceive⟩ := receive_header frame.kind hvalid.data heq
      obtain ⟨sock', -, -, hread⟩ := exact_data hdata
      rw [hreceive, receiveData, hread]
      dsimp only
      rw [hloads]

/-- Bytes start with a frame, or no message can be read from them. -/
theorem frame_or_refused (order : ByteOrder) (loads : List UInt8 → Except LoadError J)
    (bytes : List UInt8) (stop : Stop) :
    (∃ frame payload rest, Frame.Valid frame ∧ loads frame.data = .ok payload
        ∧ bytes = frame.encode order ++ rest)
      ∨ ∃ error, Refused order loads bytes stop error := by
  rcases Nat.lt_or_ge bytes.length 14 with hshort | hlength
  · exact Or.inr ⟨_, .short hshort⟩
  by_cases hframed : ∃ size kind, size ≤ maxMessage ∧ kind < 2 ^ 32
      ∧ header order size kind <+: bytes
  · obtain ⟨size, kind, hsize, hkind, rest, heq⟩ := hframed
    rcases Nat.lt_or_ge rest.length size with hcut | henough
    · exact Or.inr ⟨_, .cut size kind rest hsize heq.symm hcut⟩
    have hdata : (rest.take size).length = size := List.length_take_of_le henough
    let frame : Frame := ⟨kind, rest.take size⟩
    have hvalid : frame.Valid := ⟨hkind, hdata.le.trans hsize⟩
    have hbytes : bytes = frame.encode order ++ rest.drop size := by
      rw [Frame.encode, List.append_assoc, List.take_append_drop, hdata, heq]
    cases hloads : loads frame.data with
    | error error => exact Or.inr ⟨_, .unparsed frame _ error hvalid hbytes hloads⟩
    | ok payload => exact Or.inl ⟨frame, payload, _, hvalid, hloads, hbytes⟩
  · -- a kind beyond 32 bits packs like its remainder
    refine Or.inr ⟨_, .unframed hlength fun size kind hsize hheader => hframed ?_⟩
    exact ⟨size, kind % 2 ^ 32, hsize, Nat.mod_lt _ (by decide), by rwa [header, packWord_mod]⟩

/-! ## All messages -/

/-- A message that is received is taken from the feed. -/
theorem receive_shorter {message : Nat × J} {sock' : Feed UInt8}
    (h : receive order loads sock = .ok (message, sock')) :
    sock'.elements.length < sock.elements.length := by
  rcases frame_or_refused order loads sock.elements sock.stop with
    ⟨frame, payload, rest, hvalid, hloads, heq⟩ | ⟨error, hrefused⟩
  · obtain ⟨sock₁, hrest, -, hreceive⟩ := receive_frame hvalid hloads heq
    obtain ⟨-, rfl⟩ := Prod.mk.inj (Except.ok.inj (hreceive.symm.trans h))
    rw [heq, hrest, Frame.encode, List.length_append, List.length_append, length_header]
    omega
  · rw [receive_refused hrefused] at h
    contradiction

/-- Receive until an error is raised. -/
def receiveAll (order : ByteOrder) (loads : List UInt8 → Except LoadError J) (sock : Feed UInt8) :
    List (Nat × J) × Error :=
  match h : receive order loads sock with
  | .error error => ([], error)
  | .ok (message, rest) =>
    have := receive_shorter h
    let (messages, error) := receiveAll order loads rest
    (message :: messages, error)
termination_by sock.elements.length

/-- An error ends the messages. -/
theorem receiveAll_error {error : Error} (h : receive order loads sock = .error error) :
    receiveAll order loads sock = ([], error) := by
  unfold receiveAll
  split
  · next heq =>
    rw [h] at heq
    rw [Except.error.inj heq]
  · next heq =>
    rw [h] at heq
    contradiction

/-- A message comes before those after it. -/
theorem receiveAll_ok {message : Nat × J} {sock' : Feed UInt8}
    (h : receive order loads sock = .ok (message, sock')) : receiveAll order loads sock
      = (message :: (receiveAll order loads sock').1, (receiveAll order loads sock').2) := by
  rw [receiveAll]
  split
  · next heq =>
    rw [h] at heq
    contradiction
  · next heq =>
    rw [h] at heq
    obtain ⟨rfl, rfl⟩ := Prod.mk.inj (Except.ok.inj heq)
    rfl

/-- The messages of frames. -/
def Messages (loads : List UInt8 → Except LoadError J) (frames : List Frame)
    (messages : List (Nat × J)) : Prop :=
  List.Forall₂ (fun frame message => Frame.Valid frame ∧ frame.kind = message.1
    ∧ loads frame.data = .ok message.2) frames messages

/-- Frames and then bytes from which no message can be read. -/
def Framed (order : ByteOrder) (loads : List UInt8 → Except LoadError J) (bytes : List UInt8)
    (stop : Stop) (messages : List (Nat × J)) (error : Error) : Prop :=
  ∃ frames rest, bytes = frames.flatMap (Frame.encode order) ++ rest
    ∧ Messages loads frames messages ∧ Refused order loads rest stop error

/-- Frames are received in order, up to what is refused. -/
theorem receiveAll_framed {messages : List (Nat × J)} {error : Error}
    (h : Framed order loads sock.elements sock.stop messages error) :
    receiveAll order loads sock = (messages, error) := by
  obtain ⟨frames, rest, hbytes, hmessages, hrefused⟩ := h
  induction hmessages generalizing sock with
  | nil =>
      rw [List.flatMap_nil, List.nil_append] at hbytes
      rw [← hbytes] at hrefused
      exact receiveAll_error (receive_refused hrefused)
  | @cons frame message frames messages hframe _ ih =>
      obtain ⟨hvalid, hkind, hloads⟩ := hframe
      rw [List.flatMap_cons, List.append_assoc] at hbytes
      obtain ⟨sock', hrest, hstop, hreceive⟩ := receive_frame hvalid hloads hbytes
      rw [receiveAll_ok hreceive, ih hrest (hstop ▸ hrefused), hkind]

/-- All bytes are framed, up to an error. -/
theorem framed_exists (order : ByteOrder) (loads : List UInt8 → Except LoadError J)
    (bytes : List UInt8) (stop : Stop) :
    ∃ messages error, Framed order loads bytes stop messages error := by
  induction hlength : bytes.length using Nat.strong_induction_on generalizing bytes with
  | _ n ih =>
      rcases frame_or_refused order loads bytes stop with
        ⟨frame, payload, rest, hvalid, hloads, heq⟩ | ⟨error, hrefused⟩
      · have hless : rest.length < n := by
          rw [← hlength, heq, Frame.encode, List.length_append, List.length_append, length_header]
          omega
        obtain ⟨messages, error, frames, rest', hrest, hmessages, hrefused⟩ := ih _ hless rest rfl
        refine ⟨(frame.kind, payload) :: messages, error, frame :: frames, rest', ?_,
          .cons ⟨hvalid, rfl, hloads⟩ hmessages, hrefused⟩
        rw [heq, hrest, List.flatMap_cons, List.append_assoc]
      · exact ⟨[], error, [], bytes, rfl, .nil, hrefused⟩

/-- However the bytes arrive, what is received is what the frames say, up to the first bytes that
are no frame. -/
theorem messages_as_framed (order : ByteOrder) (loads : List UInt8 → Except LoadError J)
    (sock : Feed UInt8) (messages : List (Nat × J)) (error : Error) :
    receiveAll order loads sock = (messages, error)
      ↔ Framed order loads sock.elements sock.stop messages error := by
  refine ⟨fun h => ?_, receiveAll_framed⟩
  obtain ⟨messages', error', hframed⟩ := framed_exists order loads sock.elements sock.stop
  obtain ⟨rfl, rfl⟩ := Prod.mk.inj ((receiveAll_framed hframed).symm.trans h)
  exact hframed

end XmonadWayland.Nested
