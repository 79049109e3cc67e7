import XmonadWayland.Bridge.Manage

/-!
# XmonadWayland.Bridge.Overlay

The picker overlay of `cbits/bridge.c`: one surface on the focused output with a shared
buffer the letters are drawn into.  What is asked of the kernel is kept, oldest first;
what kernel and compositor answer is given with the calls.
-/

namespace XmonadWayland.Bridge

/-! ## State -/

/-- `struct picker_label`. -/
structure PickerLabel where
  x : Int := 0
  y : Int := 0
  width : Int := 0
  height : Int := 0
  letter : Nat := 0

/-- `struct picker_overlay`.  A pointer is whether it is set; the output is named by its
id, the buffer by the size it was created with. -/
structure PickerOverlay where
  output : Option Nat := none
  surface : Bool := false
  layerSurface : Bool := false
  buffer : Option (Nat × Nat) := none
  pool : Bool := false
  pixels : Bool := false
  width : Nat := 0
  height : Nat := 0
  stride : Nat := 0
  fd : Int := 0
  configured : Bool := false

/-- What the overlay asks of the kernel and does to its mapping. -/
inductive OsCall where
  | opened (fd : Nat)
  | discarded (fd : Nat)
  | returned (fd bytes : Nat)
  | cleared (bytes : Nat)
  | wrote (index : Nat)
  | unmapped (bytes : Nat)
  | closed (fd : Nat)
deriving DecidableEq, Repr

/-- The statics of the picker and the globals only it needs.  A layer surface calls back
from its creation until it is destroyed, closed or not. -/
structure Picker where
  compositor : Bool := false
  shm : Bool := false
  wlrLayerShell : Bool := false
  labels : Vector PickerLabel 35 := Vector.replicate 35 {}
  count : Nat := 0
  active : Bool := false
  overlay : PickerOverlay := {}
  listeners : Nat := 0
  log : List OsCall := []

/-! ## Answers -/

/-- The objects of the overlay. -/
inductive Creation where
  | created
  | noSurface
  | noLayerSurface
deriving DecidableEq, Repr

/-- Shared memory: the descriptor may be missing, or not be sized or mapped, and the
pool and the buffer may be missing. -/
inductive Allocation where
  | noDescriptor
  | unusable (fd : Nat)
  | shared (fd : Nat) (pool buffer : Bool)
deriving DecidableEq, Repr

/-! ## Drawing -/

/-- 8x8 bitmap glyphs for a-z and 1-9. -/
def pickerFont : List (List Nat) :=
  [
    [0x00, 0x00, 0x18, 0x24, 0x42, 0x7e, 0x42, 0x42], -- a
    [0x00, 0x00, 0x7c, 0x42, 0x7c, 0x42, 0x42, 0x7c], -- b
    [0x00, 0x00, 0x3c, 0x42, 0x40, 0x40, 0x42, 0x3c], -- c
    [0x00, 0x00, 0x78, 0x44, 0x42, 0x42, 0x44, 0x78], -- d
    [0x00, 0x00, 0x7e, 0x40, 0x7c, 0x40, 0x40, 0x7e], -- e
    [0x00, 0x00, 0x7e, 0x40, 0x7c, 0x40, 0x40, 0x40], -- f
    [0x00, 0x00, 0x3c, 0x42, 0x40, 0x4e, 0x42, 0x3c], -- g
    [0x00, 0x00, 0x42, 0x42, 0x7e, 0x42, 0x42, 0x42], -- h
    [0x00, 0x00, 0x7e, 0x18, 0x18, 0x18, 0x18, 0x7e], -- i
    [0x00, 0x00, 0x0e, 0x04, 0x04, 0x44, 0x44, 0x38], -- j
    [0x00, 0x00, 0x42, 0x44, 0x78, 0x44, 0x42, 0x42], -- k
    [0x00, 0x00, 0x40, 0x40, 0x40, 0x40, 0x40, 0x7e], -- l
    [0x00, 0x00, 0x42, 0x66, 0x5a, 0x42, 0x42, 0x42], -- m
    [0x00, 0x00, 0x42, 0x62, 0x52, 0x4a, 0x46, 0x42], -- n
    [0x00, 0x00, 0x3c, 0x42, 0x42, 0x42, 0x42, 0x3c], -- o
    [0x00, 0x00, 0x7c, 0x42, 0x42, 0x7c, 0x40, 0x40], -- p
    [0x00, 0x00, 0x3c, 0x42, 0x42, 0x4a, 0x44, 0x3a], -- q
    [0x00, 0x00, 0x7c, 0x42, 0x42, 0x7c, 0x44, 0x42], -- r
    [0x00, 0x00, 0x3c, 0x40, 0x3c, 0x02, 0x42, 0x3c], -- s
    [0x00, 0x00, 0x7e, 0x18, 0x18, 0x18, 0x18, 0x18], -- t
    [0x00, 0x00, 0x42, 0x42, 0x42, 0x42, 0x42, 0x3c], -- u
    [0x00, 0x00, 0x42, 0x42, 0x42, 0x42, 0x24, 0x18], -- v
    [0x00, 0x00, 0x42, 0x42, 0x42, 0x5a, 0x66, 0x42], -- w
    [0x00, 0x00, 0x42, 0x24, 0x18, 0x18, 0x24, 0x42], -- x
    [0x00, 0x00, 0x42, 0x24, 0x18, 0x18, 0x18, 0x18], -- y
    [0x00, 0x00, 0x7e, 0x02, 0x1c, 0x20, 0x40, 0x7e], -- z
    [0x00, 0x00, 0x18, 0x28, 0x08, 0x08, 0x08, 0x3e], -- 1
    [0x00, 0x00, 0x3c, 0x42, 0x02, 0x3c, 0x40, 0x7e], -- 2
    [0x00, 0x00, 0x7c, 0x02, 0x3c, 0x02, 0x02, 0x7c], -- 3
    [0x00, 0x00, 0x44, 0x44, 0x44, 0x7e, 0x04, 0x04], -- 4
    [0x00, 0x00, 0x7e, 0x40, 0x7c, 0x02, 0x42, 0x3c], -- 5
    [0x00, 0x00, 0x3c, 0x40, 0x7c, 0x42, 0x42, 0x3c], -- 6
    [0x00, 0x00, 0x7e, 0x02, 0x04, 0x08, 0x10, 0x10], -- 7
    [0x00, 0x00, 0x3c, 0x42, 0x3c, 0x42, 0x42, 0x3c], -- 8
    [0x00, 0x00, 0x3c, 0x42, 0x42, 0x3e, 0x02, 0x3c] -- 9
  ]

def pickerGlyph (letter : Nat) : Option (List Nat) :=
  if 97 ≤ letter ∧ letter ≤ 122 then pickerFont[letter - 97]?
  else if 49 ≤ letter ∧ letter ≤ 57 then pickerFont[26 + (letter - 49)]?
  else none

/-- The place of a pixel in the mapping, if it is inside the surface. -/
def pixelIndex (overlay : PickerOverlay) (cx cy : Int) : Option Nat :=
  if cx < 0 ∨ cy < 0 ∨ overlay.width ≤ cx ∨ overlay.height ≤ cy then none
  else some (cy.toNat * (overlay.stride / 4) % 4294967296 + cx.toNat)

/-- Where the output of the overlay is; a record that has been freed is nowhere. -/
def pickerOrigin (s : State) (overlay : PickerOverlay) : Int × Int :=
  match overlay.output.bind fun id => s.outputs.find? fun output => output.id = id with
  | some output => (output.x, output.y)
  | none => (0, 0)

/-- The pixels written for a label: its black background, then the letter scaled up. -/
def pickerDrawLabel (s : State) (overlay : PickerOverlay) (label : PickerLabel) : List Nat :=
  match pickerGlyph label.letter with
  | none => []
  | some glyph =>
    if label.width ≤ 0 ∨ label.height ≤ 0 then []
    else
      let left := label.x - (pickerOrigin s overlay).1
      let top := label.y - (pickerOrigin s overlay).2
      let scale := max 1 (min label.width label.height / 8)
      let offsetX := left + Int.tdiv (label.width - 8 * scale) 2
      let offsetY := top + Int.tdiv (label.height - 8 * scale) 2
      ((List.range label.height.toNat).flatMap fun row =>
        (List.range label.width.toNat).filterMap fun column =>
          pixelIndex overlay (left + column) (top + row))
      ++ (List.range 8).flatMap fun row => (List.range 8).flatMap fun column =>
        if (glyph.getD row 0).testBit (7 - column) then
          (List.range scale.toNat).flatMap fun py => (List.range scale.toNat).filterMap fun px =>
            pixelIndex overlay (offsetX + column * scale + px) (offsetY + row * scale + py)
        else []

/-! ## The buffer -/

def pickerShmFd (bytes : Nat) : Allocation → Int × List OsCall
  | .noDescriptor => (-1, [])
  | .unusable fd => (-1, [.opened fd, .discarded fd])
  | .shared fd _ _ => (fd, [.opened fd, .returned fd bytes])

def releaseCalls (overlay : PickerOverlay) : List OsCall :=
  (if overlay.pixels then [.unmapped (overlay.stride * overlay.height)] else [])
    ++ if 0 ≤ overlay.fd then [.closed overlay.fd.toNat] else []

def pickerReleaseBuffer (p : Picker) : Picker :=
  { p with
    overlay := { p.overlay with
      buffer := none
      pool := false
      pixels := false
      fd := if 0 ≤ p.overlay.fd then -1 else p.overlay.fd }
    log := p.log ++ releaseCalls p.overlay }

/-- A new buffer in place of the one there may be. -/
def pickerAllocate (stride : Nat) (a : Allocation) (p : Picker) : Picker :=
  let p := pickerReleaseBuffer p
  let (fd, calls) := pickerShmFd (stride * p.overlay.height) a
  let p := { p with overlay := { p.overlay with fd := fd }, log := p.log ++ calls }
  match a with
  | .shared _ pool buffer =>
    let p := { p with overlay := { p.overlay with
      pool := pool
      buffer := if buffer then some (p.overlay.width, p.overlay.height) else none
      pixels := true
      stride := stride } }
    if !pool || !buffer then pickerReleaseBuffer p else p
  | _ => p

/-- Clear the mapping and draw the labels. -/
def pickerPaint (s : State) (p : Picker) : Picker :=
  { p with log := p.log ++ .cleared (p.overlay.stride * p.overlay.height)
      :: ((p.labels.toList.take p.count).flatMap (pickerDrawLabel s p.overlay)).map .wrote }

def pickerRedraw (s : State) (a : Allocation) (p : Picker) : Picker :=
  if !p.overlay.configured ∨ p.overlay.width = 0 ∨ p.overlay.height = 0 then p
  else
    let stride := p.overlay.width * 4 % 4294967296
    if p.overlay.buffer = none ∨ p.overlay.stride ≠ stride then
      let p := pickerAllocate stride a p
      if p.overlay.buffer = none then p else pickerPaint s p
    else pickerPaint s p

/-! ## Calls -/

/-- The focused output if it can show the overlay, else the first that can. -/
def pickerOutput (s : State) : Option Output :=
  let outputs := s.outputs.filter fun output =>
    !output.removed && output.announced && output.hasDimensions
  (outputs.find? fun output => output.id = s.pickerOutputId).or outputs.head?

/-- The output the overlay goes up on, unless something is missing. -/
def pickerPlace (s : State) (count : Nat) (p : Picker) : Option Output :=
  if 35 < count ∨ p.active ∨ !p.compositor ∨ !p.shm ∨ !p.wlrLayerShell ∨ s.failed then none
  else pickerOutput s

def xwPickerShow (s : State) (count : Nat) (creation : Creation) (p : Picker) : Picker :=
  match pickerPlace s count p, creation with
  | some output, .created =>
    { p with
      overlay := { p.overlay with
        surface := true
        layerSurface := true
        output := some output.id
        fd := -1 }
      listeners := p.listeners + 1
      count := count
      active := true }
  | some _, .noSurface => { p with overlay := { p.overlay with surface := false } }
  | some _, .noLayerSurface => { p with overlay := { p.overlay with
      surface := false
      layerSurface := false } }
  | none, _ => p

def xwPickerLabel (index : Nat) (label : PickerLabel) (p : Picker) : Picker :=
  if p.count ≤ index ∨ 35 ≤ index then p
  else { p with labels := p.labels.setIfInBounds index label }

def xwPickerHide (p : Picker) : Picker :=
  let p := pickerReleaseBuffer p
  { p with
    overlay := { p.overlay with
      output := none
      surface := false
      layerSurface := false
      width := 0
      height := 0
      stride := 0
      configured := false }
    listeners := if p.overlay.layerSurface then p.listeners - 1 else p.listeners
    count := 0
    active := false }

def pickerLayerConfigure (s : State) (width height : Nat) (a : Allocation) (p : Picker) : Picker :=
  if p.listeners = 0 then p
  else pickerRedraw s a { p with overlay := { p.overlay with
    width := width
    height := height
    configured := true } }

/-- The proxy is not destroyed. -/
def pickerLayerClosed (p : Picker) : Picker :=
  if p.listeners = 0 then p else { p with overlay := { p.overlay with layerSurface := false } }

/-- A failure of the bridge and the end of its manager withdraw an active overlay. -/
def pickerWithdraw (p : Picker) : Picker := if p.active then xwPickerHide p else p

/-- What is called from Haskell, by the compositor and by the bridge itself. -/
inductive PickerCall where
  | bindCompositor (bound : Bool)
  | bindShm (bound : Bool)
  | bindWlrLayerShell (bound : Bool)
  | pickerShow (count : Nat) (creation : Creation)
  | pickerLabel (index : Nat) (label : PickerLabel)
  | pickerHide
  | layerConfigure (width height : Nat) (a : Allocation)
  | layerClosed
  | failed
  | finished

/-- A call, in the state the bridge is in. -/
def Picker.call (s : State) (p : Picker) : PickerCall → Picker
  | .bindCompositor bound => { p with compositor := p.compositor || bound }
  | .bindShm bound => { p with shm := p.shm || bound }
  | .bindWlrLayerShell bound => { p with wlrLayerShell := p.wlrLayerShell || bound }
  | .pickerShow count creation => xwPickerShow s count creation p
  | .pickerLabel index label => xwPickerLabel index label p
  | .pickerHide => xwPickerHide p
  | .layerConfigure width height a => pickerLayerConfigure s width height a p
  | .layerClosed => pickerLayerClosed p
  | .failed => pickerWithdraw p
  | .finished => pickerWithdraw p

theorem xwPickerShow_created {s : State} {count : Nat} {p : Picker} {output : Output}
    (h : pickerPlace s count p = some output) : xwPickerShow s count .created p =
      { p with
        overlay := { p.overlay with
          surface := true
          layerSurface := true
          output := some output.id
          fd := -1 }
        listeners := p.listeners + 1
        count := count
        active := true } := by
  simp only [xwPickerShow, h]

/-! ## The log -/

/-- Releasing the buffer only adds to the log. -/
theorem log_release (p : Picker) : p.log <+: (pickerReleaseBuffer p).log := ⟨_, rfl⟩

/-- So does allocating one. -/
theorem log_allocate (stride : Nat) (a : Allocation) (p : Picker) :
    p.log <+: (pickerAllocate stride a p).log := by
  have hopened : ∀ calls, p.log <+: (pickerReleaseBuffer p).log ++ calls :=
    fun _ => (log_release p).trans (List.prefix_append _ _)
  unfold pickerAllocate
  cases a with
  | noDescriptor => exact hopened _
  | unusable fd => exact hopened _
  | shared fd pool buffer =>
      simp only
      split
      · exact (hopened _).trans (List.prefix_append _ _)
      · exact hopened _

/-- So does redrawing. -/
theorem log_redraw (s : State) (a : Allocation) (p : Picker) :
    p.log <+: (pickerRedraw s a p).log := by
  have hpaint : ∀ p : Picker, p.log <+: (pickerPaint s p).log := fun _ => List.prefix_append _ _
  have hallocated := log_allocate (p.overlay.width * 4 % 4294967296) a p
  unfold pickerRedraw
  simp only
  split
  · exact List.prefix_rfl
  split
  · split
    · exact hallocated
    · exact hallocated.trans (hpaint _)
  · exact hpaint p

/-- Calls add to the log. -/
theorem log_call (p : Picker) (s : State) (c : PickerCall) : p.log <+: (p.call s c).log := by
  have hwithdraw : p.log <+: (pickerWithdraw p).log := by
    unfold pickerWithdraw
    split
    · exact log_release p
    · exact List.prefix_rfl
  cases c with
  | pickerShow count creation =>
      simp only [Picker.call, xwPickerShow]
      split <;> exact List.prefix_rfl
  | pickerLabel index label =>
      simp only [Picker.call, xwPickerLabel]
      split <;> exact List.prefix_rfl
  | pickerHide => exact log_release p
  | layerConfigure width height a =>
      have hsized := log_redraw s a { p with overlay := { p.overlay with
        width := width, height := height, configured := true } }
      simp only [Picker.call, pickerLayerConfigure]
      split
      · exact List.prefix_rfl
      · exact hsized
  | layerClosed =>
      simp only [Picker.call, pickerLayerClosed]
      split <;> exact List.prefix_rfl
  | failed => exact hwithdraw
  | finished => exact hwithdraw
  | _ => exact List.prefix_rfl

/-! ## Runs -/

/-- The picker after calls, each with the state of the bridge it finds. -/
def runPicker (calls : List (State × PickerCall)) : Picker :=
  calls.foldl (fun p c => p.call c.1 c.2) {}

/-- The last call runs on what the others left. -/
theorem runPicker_snoc (calls : List (State × PickerCall)) (s : State) (c : PickerCall) :
    runPicker (calls ++ [(s, c)]) = (runPicker calls).call s c := by
  simp [runPicker]

end XmonadWayland.Bridge
