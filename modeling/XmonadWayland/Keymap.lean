import XmonadWayland.Types

/-!
# XmonadWayland.Keymap

Key bindings and configuration checks of `src/XMonad/Wayland/Keymap.hs` and the
defaults of `src/XMonad/Wayland/Config.hs`.  Keysyms use the XKB numeric
representation; modifiers use River's bitmask.
-/

namespace XmonadWayland

/-! ## Chords -/

def modeKey (mode : BindingMode) (symbol modifiers : Nat) (action : Action) : KeyBinding :=
  ⟨symbol, modifiers, mode, action⟩

def key : Nat → Nat → Action → KeyBinding := modeKey .normalMode

/-- Latin-1 is represented directly in XKB; other Unicode symbols use its marker. -/
def keySym (c : Char) : Nat := if c.toNat ≤ 255 then c.toNat else 0x01000000 + c.toNat

def super : Nat := 64
def shift : Nat := 1

def keyReturn : Nat := 0xff0d
def keyEscape : Nat := 0xff1b

/-- The characters from `a` to `b`, as in `[a..b]`. -/
def charRange (a b : Char) : List Char :=
  (List.range (b.toNat + 1 - a.toNat)).map fun i => Char.ofNat (a.toNat + i)

def defaultKeyBindings : List KeyBinding :=
  let shifted := super + shift
  [ key (keySym 'j') super .focusNext
  , key (keySym 'k') super .focusPrevious
  , key (keySym 'j') shifted .swapNext
  , key (keySym 'k') shifted .swapPrevious
  , key keyReturn super .terminal
  , key keyReturn shifted .swapMaster
  , key (keySym ' ') super .nextLayout
  , key (keySym 'h') super .shrink
  , key (keySym 'l') super .expand
  , key (keySym 'c') shifted .close
  , key (keySym 'p') super .launcher
  , key (keySym 'q') shifted .stop
  , key (keySym '.') super .focusNextOutput
  , key (keySym ',') super .focusPreviousOutput
  , key (keySym 't') super .toggleFloat
  , key (keySym 'f') super .toggleFullscreen
  ] ++ ((charRange '1' '9').zip (List.range' 1 9)).flatMap fun (digit, tag) =>
    [key (keySym digit) super (.view tag), key (keySym digit) shifted (.shift tag)]

/-! ## Validation -/

def showMode : BindingMode → String
  | .normalMode => "NormalMode"
  | .resizeMode => "ResizeMode"
  | .pickerMode => "PickerMode"

/-- `show` of a chord, a triple of a mode and two numbers. -/
def showChord (chord : BindingMode × Nat × Nat) : String :=
  "(" ++ showMode chord.1 ++ "," ++ toString chord.2.1 ++ "," ++ toString chord.2.2 ++ ")"

/-- The loop of `validateKeyBindings`, with the chords seen so far. -/
def validateKeyBindingsGo :
    List (BindingMode × Nat × Nat) → List KeyBinding → Except String Unit
  | _, [] => .ok ()
  | seen, binding :: rest =>
    let chord := (binding.bindingMode, binding.bindingKeysym, binding.bindingModifiers)
    if binding.bindingKeysym = 0 then
      .error "keybinding has NoSymbol keysym (zero)"
    else if binding.bindingModifiers &&& 0xffffff12 ≠ 0 then
      .error "keybinding has unknown or locked modifier bits"
    else if chord ∈ seen then
      .error ("duplicate keybinding: " ++ showChord chord)
    else validateKeyBindingsGo (chord :: seen) rest

def validateKeyBindings (bindings : List KeyBinding) : Except String Unit :=
  validateKeyBindingsGo [] bindings

def knownWorkspace (tags : List WorkspaceId) (tag : WorkspaceId) : Except String Unit :=
  if tag ∈ tags then .ok ()
  else .error ("binding refers to unknown workspace " ++ toString tag)

def validAction (tags : List WorkspaceId) : Action → Except String Unit
  | .view tag => knownWorkspace tags tag
  | .shift tag => knownWorkspace tags tag
  | _ => .ok ()

def validateConfig (cfg : Config) : Except String Unit :=
  let tags := cfg.workspaceIds
  let choices := cfg.layoutCycle
  if tags = [] ∨ (∃ tag ∈ tags, tag ≤ 0) ∨ tags.eraseDups ≠ tags then
    .error "workspaceIds must be nonempty, unique and positive"
  else if choices = [] ∨ choices.eraseDups ≠ choices then
    .error "layoutCycle must be nonempty and contain no duplicates"
  else if cfg.initialMasterRatio ≤ 0 ∨ 1 ≤ cfg.initialMasterRatio then
    .error "initialMasterRatio must lie between zero and one"
  else if cfg.resizeIncrement < 0 then .error "resizeIncrement must not be negative"
  else if cfg.cursorSize = 0 then .error "cursorSize must be positive"
  else do
    validateKeyBindings cfg.keyBindings
    (cfg.keyBindings.map KeyBinding.bindingAction).forM (validAction tags)

/-! ## Picker keys and dispatch -/

/-- The letters of the picker, in the order of their indices. -/
def letters : List Char := charRange 'a' 'z' ++ charRange '1' '9'

/-- Letters the picker listens for while `pickerMode` is active. They are
registered after the user's bindings and are inert in every other mode. -/
def pickerBindings : List KeyBinding :=
  (letters.zipIdx.map fun (symbol, index) =>
    ⟨keySym symbol, 0, .pickerMode, .pickCandidate index⟩)
  ++ [⟨keyEscape, 0, .pickerMode, .pickCancel⟩]

/-- The action of binding `index`, if it belongs to the active mode: earlier input
in the same compositor transaction may have switched modes. -/
def bindingAt (bindings : List KeyBinding) (mode : BindingMode) (index : Nat) : Option Action :=
  match (bindings ++ pickerBindings)[index]? with
  | some binding => if binding.bindingMode = mode then some binding.bindingAction else none
  | none => none

/-! ## Defaults -/

def defaultConfig : Config where
  terminalCommand := ⟨"foot", []⟩
  launcherCommand := ⟨"fuzzel", []⟩
  initialLayout := .tall
  layoutCycle := [.tall, .mirror, .full]
  initialMasterRatio := 1 / 2
  resizeIncrement := 3 / 100
  workspaceIds := [1, 2, 3, 4, 5, 6, 7, 8, 9]
  keyBindings := defaultKeyBindings
  startupCommands := []
  cursorTheme := none
  cursorSize := 24

/-- The defaults pass their own check. -/
theorem validateConfig_defaultConfig : validateConfig defaultConfig = .ok () := by
  decide +kernel

end XmonadWayland
