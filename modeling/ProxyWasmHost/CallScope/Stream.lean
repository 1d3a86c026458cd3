/-
  The callbacks of a stream context, and those that start a context, an instance and
  a plugin.
-/
import ProxyWasmHost.CallScope.Prologue

namespace ProxyWasmHost

open Prologue

/-- The `i32` of a `bool`. -/
def ofBool (b : Bool) : I32 := if b then 1 else 0

/-! ## Stream contexts -/

def requireServed (context : ContextId) : Method Unit := do
  let scope ← Prog.read (·.scope)
  match scope.bind (·.served) with
  | some lent =>
    Prog.require (lent = context) (.context context (.otherStream lent))
  | none => pure ()
  Prog.modify fun s =>
    { s with scope := s.scope.map fun scope => { scope with served := some context } }

/-- Decides the stream context of the scope, when `context` is one. -/
def requireServedStream (context : ContextId) : Method Unit := do
  if (← contexts).contextType context = some .stream then requireServed context

/-- What every stream callback checks and records before it reaches the guest. -/
def prepareStream (context : ContextId) (kind : StreamKind) : Method Unit := do
  requireLive
  requireStream context
  accepted context
  requireStreamKind context kind
  requireServed context
  recordStreamKind context kind

def setAnnounced (announced : Option (BufferType × UInt32)) : Method Unit :=
  Prog.modify (·.mapAbi fun abi => { abi with announced })

def streamAction (context : ContextId) (kind : StreamKind) (callback : Callback)
    (announced : Option (BufferType × UInt32)) (params : List I32) (code : Code) :
    Method Action := do
  prepareStream context kind
  setAnnounced announced
  let value ← Prog.attempt (run context callback params code Action.continue.toI32)
  setAnnounced none
  let value ← Prog.ofExcept value
  Prog.orThrow (Action.tryFrom value) (.unexpectedReturn callback value)

def streamEvent (context : ContextId) (callback : Callback) (params : List I32) (code : Code) :
    Method Unit := do
  prepareStream context .tcp
  let _ ← run context callback params code 0

/-! ### The HTTP family -/

def onRequestHeaders (context : ContextId) (numHeaders : UInt32) (endOfStream : Bool)
    (code : Code) : Method Action := do
  let count ← wireU32 numHeaders
  let params := [context.wire, count, ofBool endOfStream]
  streamAction context .http .requestHeaders none params code

def onRequestBody (context : ContextId) (bodySize : UInt32) (endOfStream : Bool) (code : Code) :
    Method Action := do
  let size ← wireU32 bodySize
  let params := [context.wire, size, ofBool endOfStream]
  streamAction context .http .requestBody (some (.httpRequestBody, bodySize)) params code

def onRequestTrailers (context : ContextId) (numTrailers : UInt32) (code : Code) :
    Method Action := do
  let count ← wireU32 numTrailers
  streamAction context .http .requestTrailers none [context.wire, count] code

def onResponseHeaders (context : ContextId) (numHeaders : UInt32) (endOfStream : Bool)
    (code : Code) : Method Action := do
  let count ← wireU32 numHeaders
  let params := [context.wire, count, ofBool endOfStream]
  streamAction context .http .responseHeaders none params code

def onResponseBody (context : ContextId) (bodySize : UInt32) (endOfStream : Bool) (code : Code) :
    Method Action := do
  let size ← wireU32 bodySize
  let params := [context.wire, size, ofBool endOfStream]
  streamAction context .http .responseBody (some (.httpResponseBody, bodySize)) params code

def onResponseTrailers (context : ContextId) (numTrailers : UInt32) (code : Code) :
    Method Action := do
  let count ← wireU32 numTrailers
  streamAction context .http .responseTrailers none [context.wire, count] code

/-! ### The TCP family -/

def onNewConnection (context : ContextId) (code : Code) : Method Action :=
  streamAction context .tcp .newConnection none [context.wire] code

def onDownstreamData (context : ContextId) (dataSize : UInt32) (endOfStream : Bool)
    (code : Code) : Method Action := do
  let size ← wireU32 dataSize
  let params := [context.wire, size, ofBool endOfStream]
  streamAction context .tcp .downstreamData (some (.downstreamData, dataSize)) params code

def onUpstreamData (context : ContextId) (dataSize : UInt32) (endOfStream : Bool) (code : Code) :
    Method Action := do
  let size ← wireU32 dataSize
  let params := [context.wire, size, ofBool endOfStream]
  streamAction context .tcp .upstreamData (some (.upstreamData, dataSize)) params code

def onDownstreamConnectionClose (context : ContextId) (peer : PeerType) (code : Code) :
    Method Unit :=
  streamEvent context .downstreamConnectionClose [context.wire, peer.toI32] code

def onUpstreamConnectionClose (context : ContextId) (peer : PeerType) (code : Code) :
    Method Unit :=
  streamEvent context .upstreamConnectionClose [context.wire, peer.toI32] code

/-! ## The start of a context, an instance and a plugin -/

def onContextCreate (parent : Option ContextId) (code : Code) : Method ContextId := do
  requireLive
  match parent with
  | some parent => do
    requireRoot parent
    accepted parent
  | none => vmAccepted
  let (id, table) ← Prog.ofExcept ((← contexts).create parent)
  Prog.act (fun _ => .created id parent) (·.mapContexts fun _ => table)
  let _ ← run id .contextCreate [id.wire, (parent.map Id.wire).getD 0] code 0
  return id

def onVmStart (root : ContextId) (code : Code) : Method Bool := do
  requireLive
  requireRoot root
  accepted root
  let size ← wireSize (← Prog.read (·.abi.services.vmConfiguration)).length
  let value ← run root .vmStart [root.wire, size] code 1
  let accepted ← boolean .vmStart value
  if ¬ accepted then Prog.modify (·.mapContexts (·.rejectVm root))
  return accepted

def onConfigure (root : ContextId) (plugin : PluginConfig) (code : Code) : Method Bool := do
  requireLive
  requireRoot root
  accepted root
  let size ← wireSize plugin.configuration.length
  Prog.modify (·.mapContexts (·.setPlugin root plugin))
  let value ← run root .configure [root.wire, size] code 1
  let accepted ← boolean .configure value
  if ¬ accepted then Prog.modify (·.mapContexts (·.reject root))
  return accepted

/-- Declares the family of a stream context. -/
def expectStreamKind (context : ContextId) (kind : StreamKind) : Method Unit := do
  requireLive
  requireStream context
  requireStreamKind context kind
  recordStreamKind context kind

end ProxyWasmHost
