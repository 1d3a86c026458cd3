/-
  The checks and the call every callback method shares.
-/
import ProxyWasmHost.Guest.Code

namespace ProxyWasmHost

/-- A group of callbacks that share one stream state. -/
structure CallScope where
  /-- The stream context of the first stream callback of this scope. -/
  served : Option ContextId
  /-- The type of the value it lends, which is none for `NoStream`. -/
  lends : Option ℕ
  deriving DecidableEq

/-- A guest as its embedder holds it, with the scope that borrows it. -/
structure Session where
  host : HostState
  detached : Option Lent
  exports : Callback → Bool
  scope : Option CallScope

namespace Session

def abi (s : Session) : AbiState := s.host.abi

def mapHost (s : Session) (f : HostState → HostState) : Session := { s with host := f s.host }

def mapAbi (s : Session) (f : AbiState → AbiState) : Session := s.mapHost (·.mapAbi f)

def mapContexts (s : Session) (f : ContextTable → ContextTable) : Session :=
  s.mapAbi fun abi => { abi with contexts := f abi.contexts }

def mapCallouts (s : Session) (f : CalloutTable → CalloutTable) : Session :=
  s.mapAbi fun abi => { abi with callouts := f abi.callouts }

end Session

/-- A method of the guest or of its scope. -/
abbrev Method (α : Type) := Prog Session Event GuestError α

namespace Prologue

def contexts : Method ContextTable := Prog.read (·.abi.contexts)

def problem {α : Type} (context : ContextId) (problem : ContextProblem) : Method α :=
  Prog.throw (.context context problem)

/-- Refuses a poisoned guest, and poisons one whose last callback never returned. -/
def requireLive : Method Unit := do
  let current ← Prog.read (·.abi.currentCallback)
  if current.isSome then Prog.modify (·.mapHost HostState.poison)
  Prog.require (¬ (← Prog.read (·.host.poisoned))) (.runtime .poisoned)

def require (context : ContextId) : Method ContextType := do
  Prog.orThrow ((← contexts).contextType context) (.context context .unknown)

def requireRoot (context : ContextId) : Method Unit := do
  match ← require context with
  | .root => return ()
  | .stream => problem context .notRoot

def requireStream (context : ContextId) : Method Unit := do
  match ← require context with
  | .stream => return ()
  | .root => problem context .notStream

def requireDone (context : ContextId) : Method Unit := do
  let _ ← require context
  Prog.require ((← contexts).state context = some .done) (.context context .notDone)

def requireDeletable (context : ContextId) : Method Unit := do
  requireDone context
  Prog.require (¬ (← contexts).hasChildren context) (.context context .hasChildren)

/-- Refuses a stream callback of the family that `context` does not serve. -/
def requireStreamKind (context : ContextId) (kind : StreamKind) : Method Unit := do
  match (← contexts).streamKind context with
  | some recorded =>
    Prog.require (recorded = kind) (.context context (.wrongStreamKind recorded kind))
  | none => return ()

def recordStreamKind (context : ContextId) (kind : StreamKind) : Method Unit :=
  Prog.modify (·.mapContexts (·.setStreamKind context kind))

def accepted (context : ContextId) : Method Unit := do
  let contexts ← contexts
  match contexts.rejectionOf context with
  | none => return ()
  | some .vmStart =>
    Prog.throw (.guestRejected .vmStart (contexts.vmRejected.getD context))
  | some callback =>
    Prog.throw (.guestRejected callback ((contexts.rootOf context).getD context))

def vmAccepted : Method Unit := do
  match (← contexts).vmRejected with
  | some root => Prog.throw (.guestRejected .vmStart root)
  | none => return ()

def wireU32 (value : UInt32) : Method I32 := do
  Prog.require (value.toNat < 2 ^ 31) (.runtime (.valueTooLarge value.toNat))
  return value

/-- A byte length in the form the ABI gives a guest. -/
def wireSize (len : ℕ) : Method I32 := do
  Prog.require (len < 2 ^ 31) (.runtime (.valueTooLarge len))
  return UInt32.ofNat len

def boolean (callback : Callback) (value : I32) : Method Bool :=
  if value = 0 then return false
  else if value = 1 then return true
  else Prog.throw (.unexpectedReturn callback value)

/-- Calls the guest, or takes the default of a callback it does not export. -/
def callCallback (callback : Callback) (code : Code) (default : I32) :
    Prog Session Event Error I32 := do
  if (← Prog.read (·.exports)) callback then
    Prog.zoom Session.host (fun s host => { s with host }) (callTyped code)
  else return default

/-- Sets the effective context and the current callback, calls the guest or takes the
    default, and clears the current callback on return. A panic inside the call leaves
    the current callback set. -/
def run (context : ContextId) (callback : Callback) (params : List I32) (code : Code)
    (default : I32) : Method I32 := do
  Prog.act
    (fun s => .began callback context (s.abi.delivery.bind (·.callout)) params
      (s.exports callback) s.abi)
    (·.mapAbi fun abi =>
      { abi with
        contexts := (abi.contexts.setEffective context).2
        currentCallback := some callback })
  let result ← Prog.attempt (callCallback callback code default)
  Prog.act (fun s => .finished s.abi) (·.mapAbi fun abi => { abi with currentCallback := none })
  match result with
  | .ok value =>
    Prog.emit fun _ => .returned callback context value
    return value
  | .error error =>
    Prog.emit fun _ => .unwound callback context
    Prog.throw (.runtime error)

end Prologue

end ProxyWasmHost
