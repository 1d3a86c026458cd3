/-
  A guest from its creation on: what its embedder can call, and the runs this gives.
-/
import ProxyWasmHost.CallScope.Finalize

namespace ProxyWasmHost

open Prologue

/-! ## The creation of a guest -/

/-- What matters of a module: the callbacks it exports, the memory it has once it is
    instantiated, whether it exports an allocator, and the code that runs while the
    guest is built. `start` is the start section, which runs before the store has a
    handle to the memory. -/
structure Module where
  exports : Callback → Bool
  memory : Option Bytes
  allocator : Bool
  start : Option Code
  initializers : List Code

/-- The guest that no code has run in yet. -/
def Session.new (guest : GuestId) (module : Module) (services : VmServices) (limits : Limits) :
    Session where
  host := .new limits (.new guest services)
  detached := none
  exports := module.exports
  scope := none

/-- Runs the functions that start an instance one after another. -/
def callAll : List Code → Host Unit
  | [] => return ()
  | code :: codes => do
    let _ ← callTyped code
    callAll codes

/-- Instantiates the module and starts it. -/
def instantiate (module : Module) : Host Unit := do
  match module.start with
  | some code =>
    let _ ← code.exec
  | none => pure ()
  let memory ← Prog.orThrow module.memory .missingMemory
  Prog.modify fun h => { h with memory := some memory }
  Prog.require module.allocator .missingAllocator
  Prog.modify fun h => { h with allocator := true }
  callAll module.initializers

def Guest.new (module : Module) : Prog Session Event Error Unit :=
  Prog.zoom Session.host (fun s host => { s with host }) (instantiate module)

/-! ## The methods of a guest outside a scope -/

/-- Lends a stream state: one that an earlier scope left is dropped. -/
def enter (stream : Lent) : Method Unit :=
  Prog.modify fun s =>
    { s.mapAbi fun abi => { abi with streamState := some stream } with
      detached := none
      scope := some ⟨none, stream.type⟩ }

def enterRoot : Method Unit := enter .noStream

inductive Started where
  | serving (root : ContextId)
  | refused (root : ContextId) (callback : Callback)
  deriving DecidableEq

/-- The root context the start created, whether it serves or not. -/
def Started.root : Started → ContextId
  | .serving root | .refused root _ => root

/-- What the guest does in the three callbacks of a start. -/
structure StartCodes where
  contextCreate : Code
  vmStart : Code
  configure : Code

/-- The VM start, unless it is done, and the configuration of `root`. An error says
    which of the two it came from. -/
def startRun (root : ContextId) (plugin : PluginConfig) (codes : StartCodes) :
    Prog Session Event (Callback × GuestError) Started := do
  let vmStarted ← Prog.read (·.abi.vmStarted)
  let started ←
    if vmStarted then pure true
    else Prog.mapErr (Callback.vmStart, ·) (onVmStart root codes.vmStart)
  if ¬ started then return .refused root .vmStart
  Prog.modify (·.mapAbi fun abi => { abi with vmStarted := true })
  let configured ← Prog.mapErr (Callback.configure, ·) (onConfigure root plugin codes.configure)
  if configured then return .serving root else return .refused root .configure

/-- Creates, starts and configures a root for `plugin`, in a scope of its own. -/
def start (plugin : PluginConfig) (codes : StartCodes) : Method Started := do
  match (← contexts).rootWithId plugin.rootId with
  | some root => Prog.throw (.duplicateRootId plugin.rootId root)
  | none => pure ()
  enterRoot
  let (root, answer) ← Prog.cleanedUp
    (do
      let root ← onContextCreate none codes.contextCreate
      return (root, ← Prog.attempt (startRun root plugin codes)))
    dropped
  match answer with
  | .ok started => return started
  | .error (callback, error) =>
    Prog.modify (·.mapContexts fun table =>
      if callback = .vmStart then table.rejectVm root else table.reject root)
    Prog.throw error

def takeStream (type : ℕ) : Method (Option Lent) := do
  let detached ← Prog.read (·.detached)
  if detached.bind Lent.type = some type then
    Prog.modify fun s => { s with detached := none }
    return detached
  else return none

def takeStreamAny : Method (Option Lent) := do
  let detached ← Prog.read (·.detached)
  Prog.modify fun s => { s with detached := none }
  return detached

def takeChanges : Method Changes := do
  let taken ← Prog.read (·.abi.takeChanges)
  Prog.modify (·.mapAbi fun _ => taken.2)
  return taken.1

/-! ## What an embedder can call -/

/-- A call of the embedder, with what the guest does in the callbacks it runs. -/
inductive Op where
  -- Outside a scope.
  | enter (stream : Lent)
  | start (plugin : PluginConfig) (codes : StartCodes)
  | setServices (services : VmServices)
  | takeStream (type : ℕ)
  | takeStreamAny
  | takeChanges
  | expectStreamKind (context : ContextId) (kind : StreamKind)
  -- In a scope.
  | onContextCreate (parent : Option ContextId) (code : Code)
  | onVmStart (root : ContextId) (code : Code)
  | onConfigure (root : ContextId) (plugin : PluginConfig) (code : Code)
  | scopeExpectStreamKind (context : ContextId) (kind : StreamKind)
  | onRequestHeaders (context : ContextId) (numHeaders : UInt32) (endOfStream : Bool) (code : Code)
  | onRequestBody (context : ContextId) (bodySize : UInt32) (endOfStream : Bool) (code : Code)
  | onRequestTrailers (context : ContextId) (numTrailers : UInt32) (code : Code)
  | onResponseHeaders (context : ContextId) (numHeaders : UInt32) (endOfStream : Bool)
      (code : Code)
  | onResponseBody (context : ContextId) (bodySize : UInt32) (endOfStream : Bool) (code : Code)
  | onResponseTrailers (context : ContextId) (numTrailers : UInt32) (code : Code)
  | onNewConnection (context : ContextId) (code : Code)
  | onDownstreamData (context : ContextId) (dataSize : UInt32) (endOfStream : Bool) (code : Code)
  | onUpstreamData (context : ContextId) (dataSize : UInt32) (endOfStream : Bool) (code : Code)
  | onDownstreamConnectionClose (context : ContextId) (peer : PeerType) (code : Code)
  | onUpstreamConnectionClose (context : ContextId) (peer : PeerType) (code : Code)
  | onDone (context : ContextId) (code : Code)
  | onLog (context : ContextId) (code : Code)
  | onDelete (context : ContextId) (codes : CalloutId → Code) (code : Code)
  | onTick (root : ContextId) (code : Code)
  | onQueueReady (root : ContextId) (queue : QueueId) (code : Code)
  | onHttpCallResponse (context : ContextId) (callout : CalloutId) (response : HttpCallResponse)
      (code : Code)
  | onGrpcReceiveInitialMetadata (context : ContextId) (callout : CalloutId)
      (metadata : List Pair) (code : Code)
  | onGrpcReceive (context : ContextId) (callout : CalloutId) (message : Bytes) (code : Code)
  | onGrpcReceiveTrailingMetadata (context : ContextId) (callout : CalloutId)
      (metadata : List Pair) (code : Code)
  | onGrpcClose (context : ContextId) (callout : CalloutId) (status : GrpcStatus) (code : Code)
  | onForeignFunction (context : ContextId) (functionId : UInt32) (arguments : Bytes)
      (code : Code)
  | finish
  | dropScope
  | forgetScope

/-- Whether a call needs a scope, which borrows the guest until it ends. -/
def Op.inScope : Op → Bool
  | .enter _ | .start _ _ | .setServices _ | .takeStream _ | .takeStreamAny | .takeChanges
  | .expectStreamKind _ _ => false
  | _ => true

/-- What the embedder receives. -/
inductive Reply where
  | unit
  | bool (value : Bool)
  | action (action : Action)
  | context (id : ContextId)
  | callouts (ids : List CalloutId)
  | started (started : Started)
  | stream (stream : Option Lent)
  | changes (changes : Changes)

/-- Runs `m` and makes a reply of its value. -/
def replying {α : Type} (m : Method α) (reply : α → Reply) : Method Reply := do
  return reply (← m)

/-- What a call of the embedder does. -/
def Op.perform : Op → Method Reply
  | .enter stream => replying (ProxyWasmHost.enter stream) fun _ => .unit
  | .start plugin codes => replying (ProxyWasmHost.start plugin codes) .started
  | .setServices services =>
    replying (Prog.modify (·.mapAbi fun abi => { abi with services })) fun _ => .unit
  | .takeStream type => replying (ProxyWasmHost.takeStream type) .stream
  | .takeStreamAny => replying ProxyWasmHost.takeStreamAny .stream
  | .takeChanges => replying ProxyWasmHost.takeChanges .changes
  | .expectStreamKind c k => replying (ProxyWasmHost.expectStreamKind c k) fun _ => .unit
  | .onContextCreate p code => replying (ProxyWasmHost.onContextCreate p code) .context
  | .onVmStart r code => replying (ProxyWasmHost.onVmStart r code) .bool
  | .onConfigure r p code => replying (ProxyWasmHost.onConfigure r p code) .bool
  | .scopeExpectStreamKind c k => replying (ProxyWasmHost.expectStreamKind c k) fun _ => .unit
  | .onRequestHeaders c n e code => replying (ProxyWasmHost.onRequestHeaders c n e code) .action
  | .onRequestBody c n e code => replying (ProxyWasmHost.onRequestBody c n e code) .action
  | .onRequestTrailers c n code => replying (ProxyWasmHost.onRequestTrailers c n code) .action
  | .onResponseHeaders c n e code => replying (ProxyWasmHost.onResponseHeaders c n e code) .action
  | .onResponseBody c n e code => replying (ProxyWasmHost.onResponseBody c n e code) .action
  | .onResponseTrailers c n code => replying (ProxyWasmHost.onResponseTrailers c n code) .action
  | .onNewConnection c code => replying (ProxyWasmHost.onNewConnection c code) .action
  | .onDownstreamData c n e code => replying (ProxyWasmHost.onDownstreamData c n e code) .action
  | .onUpstreamData c n e code => replying (ProxyWasmHost.onUpstreamData c n e code) .action
  | .onDownstreamConnectionClose c p code =>
    replying (ProxyWasmHost.onDownstreamConnectionClose c p code) fun _ => .unit
  | .onUpstreamConnectionClose c p code =>
    replying (ProxyWasmHost.onUpstreamConnectionClose c p code) fun _ => .unit
  | .onDone c code => replying (ProxyWasmHost.onDone c code) .bool
  | .onLog c code => replying (ProxyWasmHost.onLog c code) fun _ => .unit
  | .onDelete c codes code => replying (ProxyWasmHost.onDelete c codes code) .callouts
  | .onTick r code => replying (ProxyWasmHost.onTick r code) fun _ => .unit
  | .onQueueReady r q code => replying (ProxyWasmHost.onQueueReady r q code) fun _ => .unit
  | .onHttpCallResponse c i r code =>
    replying (ProxyWasmHost.onHttpCallResponse c i r code) fun _ => .unit
  | .onGrpcReceiveInitialMetadata c i m code =>
    replying (ProxyWasmHost.onGrpcReceiveInitialMetadata c i m code) fun _ => .unit
  | .onGrpcReceive c i m code => replying (ProxyWasmHost.onGrpcReceive c i m code) fun _ => .unit
  | .onGrpcReceiveTrailingMetadata c i m code =>
    replying (ProxyWasmHost.onGrpcReceiveTrailingMetadata c i m code) fun _ => .unit
  | .onGrpcClose c i s code => replying (ProxyWasmHost.onGrpcClose c i s code) fun _ => .unit
  | .onForeignFunction c f a code =>
    replying (ProxyWasmHost.onForeignFunction c f a code) fun _ => .unit
  | .finish => replying ProxyWasmHost.finish fun stream => .stream (some stream)
  | .dropScope => replying (Prog.modify dropped) fun _ => .unit
  | .forgetScope => replying (Prog.modify fun s => { s with scope := none }) fun _ => .unit

/-! ## Runs -/

/-- One call of a run: the call, how it ended, and what it made visible. -/
structure Call where
  op : Op
  exit : Exit GuestError Reply
  trace : List Event

/-- The embedder may make a call when the borrow of the scope allows it. -/
def Op.Allowed (op : Op) (s : Session) : Prop := s.scope.isSome = op.inScope

/-- One call of the embedder: `step s call s'`. -/
def Session.Calls (s : Session) (calls : List Call) (s' : Session) : Prop :=
  ∃ op : Op, op.Allowed s ∧ s' = (op.perform.run s).state ∧
    calls = [⟨op, (op.perform.run s).exit, (op.perform.run s).trace⟩]

/-- A run of a guest: its creation, which leaves a trace too, and any calls after
    it. -/
structure Run where
  guest : GuestId
  module : Module
  services : VmServices
  limits : Limits
  calls : List Call
  last : Session
  created : ((Guest.new module).run (.new guest module services limits)).exit = .ok ()
  called : Steps Session.Calls ((Guest.new module).run (.new guest module services limits)).state
    calls last

namespace Run

/-- The guest no code has run in yet. -/
def first (r : Run) : Session := .new r.guest r.module r.services r.limits

/-- Everything the run made visible. -/
def trace (r : Run) : List Event :=
  ((Guest.new r.module).run r.first).trace ++ r.calls.flatMap Call.trace

/-- A run that goes on with one more call. -/
def call (r : Run) (op : Op) (h : op.Allowed r.last) : Run where
  guest := r.guest
  module := r.module
  services := r.services
  limits := r.limits
  calls := r.calls ++ [⟨op, (op.perform.run r.last).exit, (op.perform.run r.last).trace⟩]
  last := (op.perform.run r.last).state
  created := r.created
  called := r.called.snoc ⟨op, h, rfl, rfl⟩

end Run

end ProxyWasmHost
