import XmonadWayland.Types

/-!
# XmonadWayland.Protocol

The fixed-width C ABI of `src/XMonad/Wayland/Protocol.hs`: the numbers the bridge
hands to Haskell, decoded into policy events.
-/

namespace XmonadWayland

/-- The cast `(int32_t)` of an unsigned 32-bit number. -/
def int32 (n : Nat) : Int := if n < 2147483648 then n else n - 4294967296

/-- `fromIntegral` from `Int32` to `Word32`. -/
def word32 (i : Int) : Nat := (i % 4294967296).toNat

/-- Passing an id through the ABI does not change it. -/
theorem word32_int32 {n : Nat} (h : n < 4294967296) : word32 (int32 n) = n := by
  unfold word32 int32
  split <;> omega

/-- What the bridge hands to Haskell: the arguments of `xw_event`, or those of
`xw_window_string`. -/
inductive Delivered where
  | event (kind : Int) (ident : Nat) (a b c d : Int)
  | windowString (kind : Int) (ident : Nat) (text : List UInt8)
deriving DecidableEq, Repr

def Delivered.kind : Delivered → Int
  | event kind _ _ _ _ _ => kind
  | windowString kind _ _ => kind

def Delivered.ident : Delivered → Nat
  | event _ ident _ _ _ _ => ident
  | windowString _ ident _ => ident

def decodeAction (kind : Nat) (argument : Int) : Option Action :=
  let workspace (constructor : WorkspaceId → Action) : Option Action :=
    if 1 ≤ argument ∧ argument ≤ 9 then some (constructor argument) else none
  match kind with
  | 1 => some .focusNext
  | 2 => some .focusPrevious
  | 3 => some .swapMaster
  | 4 => some .nextLayout
  | 5 => some .shrink
  | 6 => some .expand
  | 7 => workspace .view
  | 8 => workspace .shift
  | 9 => some .close
  | 10 => some .terminal
  | 11 => some .launcher
  | 12 => some .stop
  | 13 => some .swapNext
  | 14 => some .swapPrevious
  | 15 => some .focusNextOutput
  | 16 => some .focusPreviousOutput
  | 17 => some .toggleFloat
  | 18 => some .toggleFullscreen
  | _ => none

def decodeEvent (kind : Int) (ident : Nat) (a b c d : Int) : Option Event :=
  match kind with
  | 1 => some (.outputUpsert ident ⟨a, b, c, d⟩)
  | 2 => some (.outputRemoved ident)
  | 3 => some (.windowAdded ident)
  | 4 => some (.windowRemoved ident)
  | 5 => some (.focusRequested ident)
  | 6 => (decodeAction ident a).map .actionRequested
  | 9 => some .locked
  | 10 => some .unlocked
  | 11 => some (.windowParent ident (if a = 0 then none else some (word32 a)))
  | 12 => some (.windowSizeHints ident a b c d)
  | 13 => some (.windowFullscreen ident (decide (a ≠ 0)))
  | 14 => some (.outputWorkArea ident ⟨a, b, c, d⟩)
  | 21 => some (.pointerStarted (word32 a) ident (word32 b) c d)
  | 22 => some (.pointerMoved ident a b)
  | 23 => some (.pointerReleased ident)
  | 24 => some (.pointerCancelled ident)
  | 25 => some (.windowActualSize ident a b)
  | _ => none

/-- Only event 21 starts a pointer operation. -/
theorem decodeEvent_pointerStarted {kind : Int} {ident : Nat} {a b c d : Int} {sid : SeatId}
    {wid : WindowId} {edges : Nat} {x y : Int}
    (h : decodeEvent kind ident a b c d = some (.pointerStarted sid wid edges x y)) :
    kind = 21 ∧ sid = word32 a ∧ wid = ident := by
  unfold decodeEvent at h
  split at h <;> grind [Option.map_eq_some_iff]

/-- Events 9 and 10 are the session's lock. -/
theorem decodeEvent_lock {kind : Int} {ident : Nat} {a b c d : Int} {ev : Event}
    (h : decodeEvent kind ident a b c d = some ev) (hev : ev = .locked ∨ ev = .unlocked) :
    kind = 9 ∨ kind = 10 := by
  unfold decodeEvent at h
  split at h <;> grind [Option.map_eq_some_iff]

end XmonadWayland
