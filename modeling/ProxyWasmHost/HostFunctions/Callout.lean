/-
  The host functions of the callouts: HTTP calls, gRPC calls and gRPC streams.
-/
import ProxyWasmHost.HostFunctions.Stream

namespace ProxyWasmHost

/-! ## Opening a callout -/

/-- Opens a callout of the effective context: a fresh identifier, which stays open
    when the service accepts. -/
def openCallout (kind : CalloutKind) (op : CalloutOp)
    (ask : Invocation → CalloutId → Answer (Except Status Unit)) : Body CalloutId := do
  let caller ← context .internalFailure
  let root ← orStatus (← Prog.read (·.abi.contexts.rootOf caller)) .internalFailure
  require (¬ (← Prog.read (·.abi.isDeleting caller))) .internalFailure
  let maximum ← Prog.read (·.limits.maxOpenCallouts)
  require ((← Prog.read (·.abi.callouts.len)) < maximum) .internalFailure
  let call ← Prog.read (·.abi.invocation caller)
  let (callout, reserved) ← Prog.orPanic (← Prog.read (·.abi.callouts.reserve))
  let answer ← askCallout call callout op
    (fun accepted _ =>
      if accepted then reserved.enter callout (.new kind caller root) else reserved)
    (ask call callout)
  Prog.ofExcept (answer.mapError .status)
  return callout

/-- `b":authority"`, `b":method"` and `b":path"`. -/
def requiredHeaders : List Bytes :=
  [[58, 97, 117, 116, 104, 111, 114, 105, 116, 121], [58, 109, 101, 116, 104, 111, 100],
    [58, 112, 97, 116, 104]]

def proxyHttpCall (env : Env)
    (upstreamNameData upstreamNameSize serializedHeadersData serializedHeadersSize bodyData
      bodySize serializedTrailersData serializedTrailersSize timeout returnCallId : I32) :
    Body Unit := do
  let upstream ← slice upstreamNameData upstreamNameSize
  let headers ← slice serializedHeadersData serializedHeadersSize
  let body ← slice bodyData bodySize
  let trailers ← slice serializedTrailersData serializedTrailersSize
  let memory ← split
  checkWord memory returnCallId
  let upstream ← readSlice memory upstream
  let headers ← readSlice memory headers
  let headers ← decoded (← guestPairs headers) .badArgument
  let body ← readSlice memory body
  let trailers ← readSlice memory trailers
  let trailers ← decoded (← guestPairs trailers) .badArgument
  let request : HttpCall := ⟨upstream, headers, body, trailers, timeout.toNat⟩
  require (∀ name ∈ requiredHeaders, ∃ pair ∈ headers, pair.1 = name) .badArgument
  let callout ← openCallout .httpCall (.httpCall request) fun call id =>
    (env.world.callouts.httpCall call id request).map fun a => a.mapError (·.toStatus)
  writeU32 returnCallId callout.wire

/-- Decodes the metadata the guest wrote. -/
def metadata (bytes : Bytes) : Body (List Pair) := do
  decoded (← guestPairs bytes) .parseFailure

def proxyGrpcCall (env : Env)
    (upstreamNameData upstreamNameSize serviceNameData serviceNameSize methodNameData
      methodNameSize serializedInitialMetadataData serializedInitialMetadataSize messageData
      messageSize timeout returnCallId : I32) : Body Unit := do
  let upstream ← slice upstreamNameData upstreamNameSize
  let service ← slice serviceNameData serviceNameSize
  let method ← slice methodNameData methodNameSize
  let initial ← slice serializedInitialMetadataData serializedInitialMetadataSize
  let message ← slice messageData messageSize
  let memory ← split
  checkWord memory returnCallId
  let upstream ← readSlice memory upstream
  let service ← readSlice memory service
  let method ← readSlice memory method
  let initial ← readSlice memory initial
  let initial ← metadata initial
  let message ← readSlice memory message
  let request : GrpcCall := ⟨upstream, service, method, initial, message, timeout.toNat⟩
  let callout ← openCallout .grpcCall (.grpcCall request) fun call id =>
    (env.world.callouts.grpcCall call id request).map fun a => a.mapError (·.toStatus)
  writeU32 returnCallId callout.wire

def proxyGrpcStream (env : Env)
    (upstreamNameData upstreamNameSize serviceNameData serviceNameSize methodNameData
      methodNameSize serializedInitialMetadataData serializedInitialMetadataSize
      returnStreamId : I32) : Body Unit := do
  let upstream ← slice upstreamNameData upstreamNameSize
  let service ← slice serviceNameData serviceNameSize
  let method ← slice methodNameData methodNameSize
  let initial ← slice serializedInitialMetadataData serializedInitialMetadataSize
  let memory ← split
  checkWord memory returnStreamId
  let upstream ← readSlice memory upstream
  let service ← readSlice memory service
  let method ← readSlice memory method
  let initial ← readSlice memory initial
  let initial ← metadata initial
  let request : GrpcStream := ⟨upstream, service, method, initial⟩
  let callout ← openCallout .grpcStream (.grpcStream request) fun call id =>
    (env.world.callouts.grpcStream call id request).map fun a => a.mapError (·.toStatus)
  writeU32 returnStreamId callout.wire

/-! ## An open callout -/

/-- What an identifier of the guest refers to. -/
inductive Found where
  | opened (callout : CalloutId) (entry : Callout)
  | ended

/-- The callout `id` refers to: one that the effective context has open, or one that
    was given to the guest and is open no more. -/
def find (id : I32) : Body Found := do
  let callout ← orStatus (Id.tryFrom id) .notFound
  let callouts ← Prog.read (·.abi.callouts)
  match callouts.get callout with
  | none => do
    require (callouts.issued callout) .notFound
    return .ended
  | some entry => do
    let caller ← context .notFound
    require (caller = entry.caller) .notFound
    return .opened callout entry

def proxyGrpcSend (env : Env) (streamId messageData messageSize endStream : I32) : Body Unit := do
  let message ← slice messageData messageSize
  let bytes ← readSlice (← split) message
  let endOfStream : Bool := endStream ≠ 0
  match ← find streamId with
  | .ended => return ()
  | .opened callout entry =>
    require (entry.kind = .grpcStream) .notFound
    if entry.closedByGuest then return ()
    else
      let caller ← context .notFound
      let call ← Prog.read (·.abi.invocation caller)
      let answer ← askCallout call callout (.grpcSend bytes endOfStream)
        (fun accepted table =>
          if accepted && endOfStream then table.closeByGuest callout else table)
        (env.world.callouts.grpcSend call callout bytes endOfStream)
      fromEmbedder answer

/-- Ends an open callout that the guest gives up. -/
def endCallout (env : Env) (callout : CalloutId) : Body Unit := do
  match ← Prog.read (·.abi.context) with
  | none => return ()
  | some caller =>
    let call ← Prog.read (·.abi.invocation caller)
    let _ ← askCallout call callout .grpcCancel (fun _ table => table.remove callout)
      ((env.world.callouts.grpcCancel call callout).map .ok)

def proxyGrpcCancel (env : Env) (callOrStreamId : I32) : Body Unit := do
  let _ ← split
  match ← find callOrStreamId with
  | .ended => return ()
  | .opened callout entry =>
    require (entry.kind ≠ .httpCall) .notFound
    endCallout env callout

def proxyGrpcClose (env : Env) (callOrStreamId : I32) : Body Unit := do
  let _ ← split
  match ← find callOrStreamId with
  | .ended => return ()
  | .opened callout entry =>
    match entry.kind with
    | .httpCall => fail .notFound
    -- A call takes no more from either side, so it ends here.
    | .grpcCall => endCallout env callout
    | .grpcStream =>
      if entry.closedByGuest then return ()
      else
        let caller ← context .notFound
        let call ← Prog.read (·.abi.invocation caller)
        let _ ← askCallout call callout .grpcClose (fun _ table => table.closeByGuest callout)
          ((env.world.callouts.grpcClose call callout).map .ok)

def proxyGetStatus (env : Env)
    (returnStatusCode returnStatusMessageData returnStatusMessageSize : I32) : Body Unit := do
  let memory ← split
  checkWord memory returnStatusCode
  checkWord memory returnStatusMessageData
  checkWord memory returnStatusMessageSize
  let delivery ← Prog.read (·.abi.delivery)
  let (code, message) ← orStatus (delivery.bind (·.status)) .notFound
  env.writeReturn message returnStatusMessageData returnStatusMessageSize
  writeU32 returnStatusCode code

end ProxyWasmHost
