import Mathlib.Data.Rat.Floor

/-!
# XmonadWayland.StackSet

The vendored window-manager abstraction `vendor/XMonad/StackSet.hs`: a cursor
into a non-empty list of workspaces, each workspace a tag, a layout and a cursor
into its windows.  Only the operations the Wayland policy reaches are modelled.

`until` in `focusWindow` is the bounded loop `focusUntil`; its bound is the
number of windows of the workspace, and `peek_focusWindow`
(`XmonadWayland.StackSet.Moves`) shows that the loop always stops by its test.
-/

namespace XmonadWayland

/-- A cursor onto a non-empty window list; `up` is stored nearest first. -/
structure Stack (α : Type) where
  focus : α
  up : List α
  down : List α
deriving DecidableEq, Repr

/-- A workspace is just a tag, a layout, and a stack. -/
structure Workspace (ι ℓ α : Type) where
  tag : ι
  layout : ℓ
  stack : Option (Stack α)
deriving DecidableEq, Repr

/-- Visible workspaces, and their Xinerama screens. -/
structure Screen (ι ℓ α σ δ : Type) where
  workspace : Workspace ι ℓ α
  screen : σ
  screenDetail : δ
deriving DecidableEq, Repr

/-- A structure for window geometries. -/
structure RationalRect where
  x : ℚ
  y : ℚ
  width : ℚ
  height : ℚ
deriving DecidableEq

/-- The current screen, the other visible screens, the hidden workspaces.  The
map `floating` is an association list: nothing in this program inserts into it. -/
structure StackSet (ι ℓ α σ δ : Type) where
  current : Screen ι ℓ α σ δ
  visible : List (Screen ι ℓ α σ δ)
  hidden : List (Workspace ι ℓ α)
  floating : List (α × RationalRect)
deriving DecidableEq

/-! ## Cursors -/

namespace Stack

variable {α : Type}

/-- Flatten a `Stack` into a list. -/
def integrate : Stack α → List α
  | ⟨x, l, r⟩ => l.reverse ++ x :: r

/-- Flatten a possibly empty stack into a list. -/
def integrate' : Option (Stack α) → List α
  | none => []
  | some st => st.integrate

/-- The elements satisfying `p`, in order; the focus moves down first, then up. -/
def filter (p : α → Bool) : Stack α → Option (Stack α)
  | ⟨f, ls, rs⟩ =>
    match (f :: rs).filter p with
    | f' :: rs' => some ⟨f', ls.filter p, rs'⟩
    | [] => match ls.filter p with
      | f' :: ls' => some ⟨f', ls', []⟩
      | [] => none

/-- Move the focus up, wrapping to the last element. -/
def focusUp' : Stack α → Stack α
  | ⟨t, l :: ls, rs⟩ => ⟨l, ls, t :: rs⟩
  | ⟨t, [], rs⟩ =>
    match (t :: rs).reverse with
    | x :: xs => ⟨x, xs, []⟩
    | [] => ⟨t, [], rs⟩

/-- Up becomes down and down becomes up. -/
def reverseStack : Stack α → Stack α
  | ⟨t, ls, rs⟩ => ⟨t, rs, ls⟩

def focusDown' (st : Stack α) : Stack α := reverseStack (focusUp' (reverseStack st))

def swapUp' : Stack α → Stack α
  | ⟨t, l :: ls, rs⟩ => ⟨t, ls, l :: rs⟩
  | ⟨t, [], rs⟩ => ⟨t, rs.reverse, []⟩

def swapDown' (st : Stack α) : Stack α := reverseStack (swapUp' (reverseStack st))

/-- Move the focused element to the top, its top element to where it was. -/
def swapMaster' : Stack α → Stack α
  | ⟨t, [], rs⟩ => ⟨t, [], rs⟩
  | ⟨t, l :: ls, rs⟩ =>
    match (l :: ls).reverse with
    | x :: xs => ⟨t, [], xs ++ x :: rs⟩
    | [] => ⟨t, l :: ls, rs⟩

end Stack

namespace StackSet

variable {ι ℓ α σ δ : Type}

/-! ## Reading a StackSet -/

/-- All screens, the current one first. -/
def screens (s : StackSet ι ℓ α σ δ) : List (Screen ι ℓ α σ δ) := s.current :: s.visible

/-- All workspaces, the current one first. -/
def workspaces (s : StackSet ι ℓ α σ δ) : List (Workspace ι ℓ α) :=
  s.current.workspace :: s.visible.map Screen.workspace ++ s.hidden

/-- The tag of the currently focused workspace. -/
def currentTag (s : StackSet ι ℓ α σ δ) : ι := s.current.workspace.tag

/-- Apply `f` to the current stack, or give `dflt` when it is empty. -/
def withStack {β : Type} (dflt : β) (f : Stack α → β) (s : StackSet ι ℓ α σ δ) : β :=
  match s.current.workspace.stack with
  | none => dflt
  | some st => f st

/-- The focused element of the current stack. -/
def peek (s : StackSet ι ℓ α σ δ) : Option α := withStack none (fun st => some st.focus) s

/-- The stack on the current workspace, as a list; its head is the master. -/
def index (s : StackSet ι ℓ α σ δ) : List α := withStack [] Stack.integrate s

/-- All windows, in no particular order. -/
def allWindows [DecidableEq α] (s : StackSet ι ℓ α σ δ) : List α :=
  (s.workspaces.flatMap fun w => Stack.integrate' w.stack).eraseDups

/-- Is the given tag present? -/
def tagMember [DecidableEq ι] (t : ι) (s : StackSet ι ℓ α σ δ) : Bool :=
  t ∈ s.workspaces.map Workspace.tag

/-- Does a workspace's stack hold the window? -/
def has [DecidableEq α] (a : α) : Option (Stack α) → Bool
  | none => false
  | some ⟨t, l, r⟩ => a ∈ t :: l ++ r

/-- The workspace tag of the given window. -/
def findTag [DecidableEq α] (a : α) (s : StackSet ι ℓ α σ δ) : Option ι :=
  ((s.workspaces.filter fun w => has a w.stack).map Workspace.tag).head?

/-- Is a window in the StackSet? -/
def member [DecidableEq α] (a : α) (s : StackSet ι ℓ α σ δ) : Bool := (findTag a s).isSome

/-! ## Changing the current stack -/

/-- Modify the current stack; `d` is the result for an empty one. -/
def modify (d : Option (Stack α)) (f : Stack α → Option (Stack α)) (s : StackSet ι ℓ α σ δ) :
    StackSet ι ℓ α σ δ :=
  { s with current := { s.current with
      workspace := { s.current.workspace with stack := withStack d f s } } }

/-- Modify the current stack if it is not empty. -/
def modify' (f : Stack α → Stack α) (s : StackSet ι ℓ α σ δ) : StackSet ι ℓ α σ δ :=
  modify none (fun st => some (f st)) s

def focusUp (s : StackSet ι ℓ α σ δ) : StackSet ι ℓ α σ δ := modify' Stack.focusUp' s

def focusDown (s : StackSet ι ℓ α σ δ) : StackSet ι ℓ α σ δ := modify' Stack.focusDown' s

def swapUp (s : StackSet ι ℓ α σ δ) : StackSet ι ℓ α σ δ := modify' Stack.swapUp' s

def swapDown (s : StackSet ι ℓ α σ δ) : StackSet ι ℓ α σ δ := modify' Stack.swapDown' s

def swapMaster (s : StackSet ι ℓ α σ δ) : StackSet ι ℓ α σ δ := modify' Stack.swapMaster' s

/-- Map a function on all the workspaces. -/
def mapWorkspace (f : Workspace ι ℓ α → Workspace ι ℓ α) (s : StackSet ι ℓ α σ δ) :
    StackSet ι ℓ α σ δ :=
  { s with
    current := { s.current with workspace := f s.current.workspace }
    visible := s.visible.map fun scr => { scr with workspace := f scr.workspace }
    hidden := s.hidden.map f }

/-- Insert a new element above the focused one and focus it. -/
def insertUp [DecidableEq α] (a : α) (s : StackSet ι ℓ α σ δ) : StackSet ι ℓ α σ δ :=
  if member a s then s
  else modify (some ⟨a, [], []⟩) (fun ⟨t, l, r⟩ => some ⟨a, l, t :: r⟩) s

/-- Clear the floating status of a window. -/
def sink [DecidableEq α] (w : α) (s : StackSet ι ℓ α σ δ) : StackSet ι ℓ α σ δ :=
  { s with floating := s.floating.filter fun entry => entry.1 ≠ w }

/-- Remove the window from its stack only. -/
def delete' [DecidableEq α] (w : α) (s : StackSet ι ℓ α σ δ) : StackSet ι ℓ α σ δ :=
  mapWorkspace (fun ws => { ws with stack := ws.stack.bind (Stack.filter (· ≠ w)) }) s

/-- Delete window `w` if it exists. -/
def delete [DecidableEq α] (w : α) (s : StackSet ι ℓ α σ δ) : StackSet ι ℓ α σ δ :=
  sink w (delete' w s)

/-! ## Changing the current workspace -/

section View

variable [DecidableEq ι] [DecidableEq σ]

/-- Set focus to the workspace with tag `i`: raise its screen when it is visible,
show it on the current screen when it is hidden. -/
def view (i : ι) (s : StackSet ι ℓ α σ δ) : StackSet ι ℓ α σ δ :=
  if i = s.currentTag then s
  else match s.visible.find? fun x => i = x.workspace.tag with
    | some x =>
      { s with
        current := x
        visible := s.current :: s.visible.eraseP fun y => x.screen = y.screen }
    | none => match s.hidden.find? fun x => i = x.tag with
      | some x =>
        { s with
          current := { s.current with workspace := x }
          hidden := s.current.workspace :: s.hidden.eraseP fun y => x.tag = y.tag }
      | none => s

/-- `until ((Just w ==) . peek) focusUp`, at most `fuel` times. -/
def focusUntil [DecidableEq α] (w : α) : Nat → StackSet ι ℓ α σ δ → StackSet ι ℓ α σ δ
  | 0, s => s
  | fuel + 1, s => if peek s = some w then s else focusUntil w fuel (focusUp s)

/-- Focus the window `w`, and set its workspace as current. -/
def focusWindow [DecidableEq α] (w : α) (s : StackSet ι ℓ α σ δ) : StackSet ι ℓ α σ δ :=
  if some w = peek s then s
  else match findTag w s with
    | none => s
    | some n => focusUntil w (index (view n s)).length (view n s)

/-- Run `f` with workspace `n` current, then come back. -/
def onWorkspace (n : ι) (f : StackSet ι ℓ α σ δ → StackSet ι ℓ α σ δ)
    (s : StackSet ι ℓ α σ δ) : StackSet ι ℓ α σ δ :=
  view (currentTag s) (f (view n s))

/-- Move window `w` to workspace `n`, leaving it focused there. -/
def shiftWin [DecidableEq α] (n : ι) (w : α) (s : StackSet ι ℓ α σ δ) : StackSet ι ℓ α σ δ :=
  match findTag w s with
  | some from' =>
    if tagMember n s ∧ n ≠ from' then
      onWorkspace n (insertUp w) (onWorkspace from' (delete' w) s)
    else s
  | none => s

end View

end StackSet

end XmonadWayland
