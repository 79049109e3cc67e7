import XmonadWayland.Bridge.Wire

/-!
# XmonadWayland.Bridge.Loop

`xw_run` of `cbits/bridge.c`: it connects, discovers the globals, dispatches until the
window manager is stopped or interrupted, and cleans up.  What libwayland and the kernel answer
is given with the run: a script of `Answers`, one for each `dispatch_once`, and for each
reading of `interrupted` whether a signal has arrived before it.  The calls are kept, oldest
first, in `calls`.
-/

namespace XmonadWayland.Bridge

/-! ## Answers of the environment -/

/-- What a listener is called for: the window manager global, the end of the discovery, or a
callback of the system. -/
inductive Arrival where
  | manager (version : Nat)
  | discovered
  | callback (cb : Callback)
deriving DecidableEq, Repr

/-- What `wl_display_dispatch_pending` dispatches, and whether the connection script out lost. -/
structure Batch where
  arrivals : List Arrival := []
  lost : Bool := false

/-- The errors the bridge tells apart. -/
inductive Errno where
  | again | intr | other
deriving DecidableEq, Repr

/-- `readable` stands for `POLLIN | POLLHUP | POLLERR`, `invalid` for `POLLNVAL`. -/
inductive Polled where
  | error (errno : Errno)
  | timeout
  | ready (readable invalid : Bool)
deriving DecidableEq, Repr

/-- The answers during one `dispatch_once`: whether the exit was requested since the last one,
the batches dispatched before reading is prepared, the flush, the poll, the read and the batch
after it. -/
structure Answers where
  exitRequested : Bool := false
  pending : List Batch := []
  flushed : Option Errno := none
  polled : Polled := .timeout
  read : Option Errno := none
  batch : Batch := {}

inductive Signal where
  | int | term
deriving DecidableEq, Repr

/-- The answers before the loop and after it. -/
structure Environment where
  connected : Bool := true
  registry : Bool := true
  registryListener : Bool := true
  discovery : Bool := true
  discoveryListener : Bool := true
  install : Signal → Bool := fun _ => true
  restore : Signal → Bool := fun _ => true

/-- What the clean-up destroys. -/
inductive Proxy where
  | discovery
  | object (kind : Kind) (id : Nat)
  | xkb
  | layerShell
  | manager
  | registry
deriving DecidableEq, Repr

/-- Callback and registry have no protocol destructor. -/
def Proxy.hasDestructor : Proxy → Bool
  | .discovery => false
  | .registry => false
  | _ => true

/-- A call of the main loop, or the first reading of `interrupted` that sees a signal. -/
inductive Call where
  | connect (ok : Bool)
  | install (signal : Signal) (ok : Bool)
  | noticed
  | exitSession
  | prepareRead (ok : Bool)
  | cancelRead
  | readEvents
  | dispatchPending (arrivals : List Arrival)
  | flush
  | poll
  | release (protocol : Bool) (proxy : Proxy)
  | disconnect
  | restore (signal : Signal) (ok : Bool)
deriving DecidableEq, Repr

/-! ## The process -/

/-- The rest of the static state. -/
structure Process where
  system : System
  manager : Option Nat := none
  registry : Bool := false
  discovery : Bool := false
  discoveryDone : Bool := false
  exitSent : Bool := false
  installed : Signal → Bool := fun _ => false
  interrupted : Bool := false
  signals : List Bool := []
  calls : List Call := []

namespace Process

def call (c : Call) (p : Process) : Process := { p with calls := p.calls ++ [c] }

def fail (message : String) (p : Process) : Process :=
  { p with system := p.system.onBridge (Bridge.fail message) }

/-- Leave the loop without a failure. -/
def halt (p : Process) : Process :=
  { p with system := p.system.onBridge fun s => { s with running := false } }

def failed (p : Process) : Bool := p.system.bridge.failed

/-- Read `interrupted`. -/
def look (p : Process) : Process :=
  if !p.interrupted && p.signals.head?.getD false then
    { p with interrupted := true, signals := p.signals.tail, calls := p.calls ++ [.noticed] }
  else { p with signals := p.signals.tail }

def stopped (p : Process) : Bool := p.interrupted || !p.system.bridge.running || p.failed

/-! ## Listeners of the loop -/

/-- `registry_global` for the window manager. -/
def registryGlobal (version : Nat) (p : Process) : Process :=
  if version < 1 ∨ p.manager.isSome then p
  else { p with manager := some (if version < 4 then version else 4) }

def onDiscoveryDone (p : Process) : Process := { p with discoveryDone := true, discovery := false }

def arrive (p : Process) : Arrival → Process
  | .manager version => p.registryGlobal version
  | .discovered => p.onDiscoveryDone
  | .callback cb => { p with system := p.system.step cb }

def dispatchPending (arrivals : List Arrival) (p : Process) : Process :=
  arrivals.foldl arrive (p.call (.dispatchPending arrivals))

/-! ## One turn -/

/-- Session exit requires River window management protocol version 4. -/
def requestExit (requested : Bool) (p : Process) : Process :=
  if requested && p.manager.any (4 ≤ ·) then { p.call .exitSession with exitSent := true } else p

def lostPending : String := "Wayland connection lost while dispatching pending events"

/-- Dispatch what is pending until reading is prepared; true if it is. -/
def prepareRead : List Batch → Process → Process × Bool
  | [], p => (p.call (.prepareRead true), true)
  | batch :: pending, p =>
    let p := (p.call (.prepareRead false)).look
    if p.stopped then (p, false)
    else
      let p := p.dispatchPending batch.arrivals
      if batch.lost then
        let p := p.look
        ((if !p.interrupted && !p.exitSent then p.fail lostPending else p).halt, false)
      else prepareRead pending p

def lostReading : String := "Wayland connection lost or compositor rejected a protocol request "
  ++ "(see Wayland diagnostic above)"

def lostDispatching : String := "Wayland connection lost while dispatching events"

/-- Read what has come and dispatch it. -/
def readEvents (answers : Answers) (p : Process) : Process :=
  let p := (p.call .readEvents).look
  match answers.read with
  | some errno =>
    let p := if !p.interrupted && !p.exitSent && errno ≠ .intr then p.fail lostReading else p
    if p.exitSent then p.halt else p
  | none =>
    if p.interrupted then p
    else
      let p := p.dispatchPending answers.batch.arrivals
      if answers.batch.lost then
        let p := p.look
        if p.interrupted then p else if p.exitSent then p.halt else p.fail lostDispatching
      else p

/-- A bounded poll also covers signals delivered on another RTS thread, where poll need not
return EINTR, and the race between testing interrupted and entering poll. -/
def pollOnce (answers : Answers) (p : Process) : Process :=
  let p := (p.call .poll).look
  match answers.polled with
  | .error errno =>
    let p := (p.call .cancelRead).look
    if !p.interrupted && errno ≠ .intr then p.fail "could not poll Wayland connection" else p
  | .timeout => p.call .cancelRead
  | .ready readable invalid =>
    if p.interrupted then p.call .cancelRead
    else if readable then p.readEvents answers
    else
      let p := p.call .cancelRead
      if invalid then p.fail "Wayland connection descriptor became invalid" else p

def lostFlushing : String := "Wayland connection lost while flushing requests"

/-- There is no unbounded blocking operation after prepare_read. -/
def flushOnce (answers : Answers) (p : Process) : Process :=
  let p := p.call .flush
  if answers.flushed = none ∨ answers.flushed = some .again then p.pollOnce answers
  else
    let p := (p.call .cancelRead).look
    let p := if !p.interrupted && !p.exitSent && answers.flushed ≠ some .intr
      then p.fail lostFlushing else p
    if p.exitSent then p.halt else p

def dispatchOnce (answers : Answers) (p : Process) : Process :=
  match (p.requestExit answers.exitRequested).prepareRead answers.pending with
  | (p, false) => p
  | (p, true) =>
    let p := p.look
    if p.stopped then p.call .cancelRead else p.flushOnce answers

/-! ## Before and after the loop -/

def sigaction (env : Environment) (signal : Signal) (message : String) (p : Process) : Process :=
  let p := p.call (.install signal (env.install signal))
  if env.install signal then
    { p with installed := fun s => p.installed s || s = signal }
  else p.fail message

def installSignalHandlers (env : Environment) (p : Process) : Process :=
  let p := p.sigaction env .int "could not install SIGINT shutdown handler"
  if p.failed then p else p.sigaction env .term "could not install SIGTERM shutdown handler"

def restoreSignal (env : Environment) (signal : Signal) (message : String) (p : Process) :
    Process :=
  if p.installed signal then
    let p := p.call (.restore signal (env.restore signal))
    if env.restore signal then p else p.fail message
  else p

def restoreSignalHandlers (env : Environment) (p : Process) : Process :=
  (p.restoreSignal env .term "could not restore original SIGTERM handler").restoreSignal env .int
    "could not restore original SIGINT handler"

def startRegistry (env : Environment) (p : Process) : Process :=
  let p := { p with registry := env.registry }
  if !env.registry then p.fail "could not obtain Wayland registry"
  else if !env.registryListener then p.fail "could not install Wayland registry listener"
  else p

def startDiscovery (env : Environment) (p : Process) : Process :=
  let p := { p with discovery := env.discovery }
  if env.discovery && env.discoveryListener then p
  else p.fail "could not start Wayland registry discovery"

/-- The part of `xw_run` between the connection and the loop. -/
def setUp (env : Environment) (p : Process) : Process :=
  let p := p.startRegistry env
  let p := if p.failed then p else p.installSignalHandlers env
  if p.failed then p else p.startDiscovery env

/-- Is the condition of a loop true?  `interrupted` is read last. -/
def goesOn (waits : Process → Bool) (p : Process) : Process × Bool :=
  if waits p && p.system.bridge.running && !p.failed then (p.look, !p.look.interrupted)
  else (p, false)

/-- Dispatch while the condition is true; what is left of the script, or none if the condition
still is true at its end. -/
def dispatchWhile (waits : Process → Bool) :
    List Answers → Process → Process × Option (List Answers)
  | [], p =>
    let (p, more) := p.goesOn waits
    (p, if more then none else some [])
  | answers :: script, p =>
    let (p, more) := p.goesOn waits
    if more then dispatchWhile waits script (p.dispatchOnce answers)
    else (p, some (answers :: script))

/-- A global is missing after the discovery. -/
def requireGlobal (present : Process → Bool) (message : String) (p : Process) : Process :=
  let p := p.look
  if !p.interrupted && !p.failed && !present p then p.fail message else p

def missingManager : String := "compositor lacks river_window_manager_v1; River >= 0.4 is "
  ++ "required (River classic/0.3 is incompatible)"

def missingXkb : String := "compositor lacks river_xkb_bindings_v1; River >= 0.4 is required"

def requireGlobals (p : Process) : Process :=
  (p.requireGlobal (fun p => p.manager.isSome) missingManager).requireGlobal
    (fun p => p.system.bridge.xkb) missingXkb

/-- The proxies that are left, in the order of the clean-up. -/
def proxies (p : Process) : List Proxy :=
  (if p.discovery then [.discovery] else [])
  ++ p.system.bridge.windows.map (fun w => .object .window w.id)
  ++ p.system.bridge.outputs.map (fun output => .object .output output.id)
  ++ p.system.bridge.seats.map (fun seat => .object .seat seat.id)
  ++ (if p.system.bridge.xkb then [.xkb] else [])
  ++ (if p.system.bridge.layerShell then [.layerShell] else [])
  ++ (if p.manager.isSome then [.manager] else [])
  ++ if p.registry then [.registry] else []

/-- The protocol destructor is valid after removed/closed or manager.finished.  During
disconnect/error cleanup only destroy client-side proxies. -/
def byProtocol (p : Process) : Bool := p.system.bridge.finished && !p.failed

def cleanup (p : Process) : Process :=
  { p with calls := p.calls
      ++ p.proxies.map (fun proxy => .release (p.byProtocol && proxy.hasDestructor) proxy)
      ++ (if p.byProtocol then [.flush] else [])
      ++ [.disconnect] }

/-- A run of the process: its state, and the result once it has returned. -/
def xwRun (env : Environment) (script : List Answers) (signals : List Bool) (start : System) :
    Process × Option Nat :=
  let p : Process := { system := start, signals := signals }
  if !env.connected then ((p.call (.connect false)).halt, some 1)
  else
    match dispatchWhile (fun p => !p.discoveryDone) script (setUp env (p.call (.connect true))) with
    | (p, none) => (p, none)
    | (p, some script) =>
      match dispatchWhile (fun _ => true) script p.requireGlobals with
      | (p, none) => (p, none)
      | (p, some _) =>
        let p := p.cleanup.restoreSignalHandlers env
        (p, some (if p.failed then 1 else 0))

end Process

end XmonadWayland.Bridge
