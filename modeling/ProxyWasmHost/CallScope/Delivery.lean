/-
  The callbacks that deliver to a guest: the results of callouts, ticks, queues, and
  foreign function calls.
-/
import ProxyWasmHost.CallScope.Stream

namespace ProxyWasmHost

open Prologue

/-- What one delivery calls: it ends the callout when `ends` is set. -/
structure Delivered where
  context : ContextId
  callout : Option CalloutId
  delivery : Delivery
  callback : Callback
  params : List I32
  ends : Bool

def setDelivery (delivery : Option Delivery) : Method Unit :=
  Prog.modify (·.mapAbi fun abi => { abi with delivery })

/-- Takes the callout that a delivery ends out of the table. -/
def takeEnded (call : Delivered) : Method (Option (CalloutId × Callout)) := do
  match if call.ends then call.callout else none with
  | none => return none
  | some callout =>
    let entry ← Prog.read (·.abi.callouts.get callout)
    Prog.act (fun _ => .ended callout entry) (·.mapCallouts (·.remove callout))
    return entry.map fun entry => (callout, entry)

/-- Serves a delivery to the callback that runs for it. A callout the delivery ends
    leaves the table first, and comes back when the guest did not survive. -/
def deliver (call : Delivered) (code : Code) : Method Unit := do
  let entry ← takeEnded call
  setDelivery (some call.delivery)
  let result ← Prog.attempt (run call.context call.callback call.params code 0)
  let poisoned ← Prog.read (·.host.poisoned)
  setDelivery none
  match entry with
  | some (callout, entry) =>
    if poisoned then Prog.modify (·.mapCallouts (·.enter callout entry))
  | none => pure ()
  let _ ← Prog.ofExcept result

def deliverHttpResponse (root : ContextId) (callout : CalloutId) (response : HttpCallResponse)
    (code : Code) : Method Unit := do
  let headers ← wireSize response.headers.length
  let body ← wireSize response.body.length
  let trailers ← wireSize response.trailers.length
  deliver
    { context := root
      callout := some callout
      delivery := .httpCallResponse callout response
      callback := .httpCallResponse
      params := [root.wire, callout.wire, headers, body, trailers]
      ends := true } code

def deliverGrpcClose (root : ContextId) (callout : CalloutId) (status : GrpcStatus)
    (code : Code) : Method Unit := do
  let _ ← wireSize status.message.length
  deliver
    { context := root
      callout := some callout
      delivery := .grpcClose callout status
      callback := .grpcClose
      params := [root.wire, callout.wire, status.code]
      ends := true } code

/-! ## Callouts -/

/-- Refuses a callout that is not open, of another caller, or of another kind. -/
def requireOpen (context : ContextId) (callout : CalloutId) (kinds : List CalloutKind) :
    Method Callout := do
  let callouts ← Prog.read (·.abi.callouts)
  let entry ← Prog.orThrow (callouts.get callout) (.callout callout .notOpen)
  Prog.require (entry.caller = context) (.callout callout (.notMadeBy context))
  Prog.require (entry.kind ∈ kinds) (.callout callout (.wrongKind entry.kind))
  return entry

def onHttpCallResponse (context : ContextId) (callout : CalloutId) (response : HttpCallResponse)
    (code : Code) : Method Unit := do
  requireLive
  let entry ← requireOpen context callout [.httpCall]
  Prog.require (response.isFailed ∨ response.headers ≠ []) (.callout callout .noResponseHeader)
  requireRoot entry.root
  accepted entry.root
  deliverHttpResponse entry.root callout response code

/-- The checks of every gRPC delivery. -/
def grpcAccepted (context : ContextId) (callout : CalloutId) : Method Callout := do
  let entry ← requireOpen context callout [.grpcCall, .grpcStream]
  requireRoot entry.root
  accepted entry.root
  return entry

def onGrpcReceiveInitialMetadata (context : ContextId) (callout : CalloutId)
    (metadata : List Pair) (code : Code) : Method Unit := do
  requireLive
  let entry ← grpcAccepted context callout
  let count ← wireSize metadata.length
  deliver
    { context := entry.root
      callout := some callout
      delivery := .grpcInitialMetadata callout metadata
      callback := .grpcReceiveInitialMetadata
      params := [entry.root.wire, callout.wire, count]
      ends := false } code

def onGrpcReceive (context : ContextId) (callout : CalloutId) (message : Bytes) (code : Code) :
    Method Unit := do
  requireLive
  let entry ← grpcAccepted context callout
  let size ← wireSize message.length
  deliver
    { context := entry.root
      callout := some callout
      delivery := .grpcMessage callout message
      callback := .grpcReceive
      params := [entry.root.wire, callout.wire, size]
      ends := entry.kind = .grpcCall } code

def onGrpcReceiveTrailingMetadata (context : ContextId) (callout : CalloutId)
    (metadata : List Pair) (code : Code) : Method Unit := do
  requireLive
  let entry ← grpcAccepted context callout
  let count ← wireSize metadata.length
  deliver
    { context := entry.root
      callout := some callout
      delivery := .grpcTrailingMetadata callout metadata
      callback := .grpcReceiveTrailingMetadata
      params := [entry.root.wire, callout.wire, count]
      ends := false } code

def onGrpcClose (context : ContextId) (callout : CalloutId) (status : GrpcStatus) (code : Code) :
    Method Unit := do
  requireLive
  let entry ← grpcAccepted context callout
  deliverGrpcClose entry.root callout status code

/-! ## Ticks, queues and foreign functions -/

def onTick (root : ContextId) (code : Code) : Method Unit := do
  requireLive
  requireRoot root
  accepted root
  let _ ← run root .tick [root.wire] code 0

def onQueueReady (root : ContextId) (queue : QueueId) (code : Code) : Method Unit := do
  requireLive
  requireRoot root
  accepted root
  let registrants ← Prog.read (·.abi.registrantsOf queue)
  Prog.require (root ∈ registrants) (.queue queue (.notRegisteredBy root))
  let _ ← run root .queueReady [root.wire, queue.wire] code 0

def onForeignFunction (context : ContextId) (functionId : UInt32) (arguments : Bytes)
    (code : Code) : Method Unit := do
  requireLive
  let _ ← Prologue.require context
  accepted context
  let size ← wireSize arguments.length
  deliver
    { context := context
      callout := none
      delivery := .foreignArguments arguments
      callback := .foreignFunction
      params := [context.wire, functionId, size]
      ends := false } code

end ProxyWasmHost
