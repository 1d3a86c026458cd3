/-
  What the embedder supplies: the services of one guest, the requests that
  reach them, and the answers they give.

  A service is embedder code. Here it is what it answers during one host
  function call; the identity of the shared store and of the callout service,
  which is the address of the value the embedder lent, is a `ServiceId`.
-/
import ProxyWasmHost.Lib.Multimap
import ProxyWasmHost.Types

namespace ProxyWasmHost

/-- What embedder code answers, or `none` when it panics. -/
abbrev Answer (α : Type) := Option α

abbrev ServiceId := ℕ

/-- A change the embedder does not allow. -/
inductive NotAllowed where
  | notAllowed
  deriving DecidableEq

inductive Access where
  | read | write
  deriving DecidableEq

/-- The call an embedder is told about. -/
structure Invocation where
  guest : GuestId
  context : ContextId
  callback : Option Callback
  callout : Option CalloutId
  deriving DecidableEq

/-- The state a log line is written in. -/
structure LogContext where
  vmId : Bytes
  guest : GuestId
  pluginName : Option Bytes
  rootId : Option Bytes
  call : Option Invocation
  deriving DecidableEq

/-- The plugin of a root context. -/
structure PluginConfig where
  name : Bytes
  rootId : Bytes
  configuration : Bytes
  deriving DecidableEq

/-- The services of one guest that the embedder replaces between calls. -/
structure VmServices where
  environment : List Pair
  logLevel : LogLevel
  vmId : Bytes
  vmConfiguration : Bytes
  shared : ServiceId
  callouts : ServiceId
  deriving DecidableEq

/-! ## Requests -/

structure ForeignCall where
  name : Bytes
  arguments : Bytes
  deriving DecidableEq

structure LocalResponse where
  statusCode : UInt32
  statusCodeDetails : Bytes
  body : Bytes
  headers : List Pair
  grpcStatus : Option UInt32
  deriving DecidableEq

/-- An HTTP call; the timeout is in milliseconds. -/
structure HttpCall where
  upstream : Bytes
  headers : List Pair
  body : Bytes
  trailers : List Pair
  timeout : ℕ
  deriving DecidableEq

structure GrpcCall where
  upstream : Bytes
  service : Bytes
  method : Bytes
  initialMetadata : List Pair
  message : Bytes
  timeout : ℕ
  deriving DecidableEq

structure GrpcStream where
  upstream : Bytes
  service : Bytes
  method : Bytes
  initialMetadata : List Pair
  deriving DecidableEq

/-- How a gRPC call or stream ended; the message is its UTF-8 bytes. -/
structure GrpcStatus where
  code : UInt32
  message : Bytes
  deriving DecidableEq

/-- A response to an HTTP call. One that failed holds nothing. -/
structure HttpCallResponse where
  received : Bool
  headers : List Pair
  body : Bytes
  trailers : List Pair
  empty_of_failed : received = false → headers = [] ∧ body = [] ∧ trailers = []

namespace HttpCallResponse

def failed : HttpCallResponse := ⟨false, [], [], [], fun _ => ⟨rfl, rfl, rfl⟩⟩

def isFailed (r : HttpCallResponse) : Bool := !r.received

end HttpCallResponse

inductive HttpCallRefusal where
  | unknownUpstream | failed
  deriving DecidableEq

def HttpCallRefusal.toStatus : HttpCallRefusal → Status
  | .unknownUpstream => .badArgument
  | .failed => .internalFailure

inductive GrpcOpenRefusal where
  | unknownUpstream | failed
  deriving DecidableEq

def GrpcOpenRefusal.toStatus : GrpcOpenRefusal → Status
  | .unknownUpstream => .parseFailure
  | .failed => .internalFailure

/-- A value of shared data. -/
structure SharedValue where
  bytes : Bytes
  cas : UInt32
  cas_ne_zero : cas ≠ 0
  deriving DecidableEq

/-! ## What the traits answer during one host function call -/

/-- A header map of the embedder, with what each of two walks visits. A panic of
    one of its methods counts as one of the call that returned it. -/
structure HeaderMap where
  get : Bytes → Option Bytes
  source : Codec.PairSource
  set : Bytes → Bytes → Except NotAllowed Unit
  add : Bytes → Bytes → Except NotAllowed Unit
  remove : Bytes → Except NotAllowed Unit
  replaceAll : List Pair → Except NotAllowed Unit

/-- What a map answers to a write. -/
def HeaderMap.write (map : HeaderMap) : Multimap.Write Bytes Bytes → Except NotAllowed Unit
  | .set key value => map.set key value
  | .add key value => map.add key value
  | .remove key => map.remove key
  | .replaceAll pairs => map.replaceAll pairs

/-- A buffer of the embedder. -/
structure Buffer where
  len : ℕ
  copyRangeInto : ℕ → ℕ → Bytes
  replace : ℕ → ℕ → Bytes → Except NotAllowed Unit

structure StreamState where
  headerMap : Invocation → Access → MapType → Answer (Except Status HeaderMap)
  buffer : Invocation → Access → BufferType → Answer (Except Status Buffer)
  continueStream : Invocation → StreamType → Answer (Except Status Unit)
  closeStream : Invocation → StreamType → Answer (Except Status Unit)
  sendLocalResponse : Invocation → LocalResponse → Answer (Except Status Unit)
  property : Invocation → List Bytes → Answer (Except Status Bytes)
  setProperty : Invocation → List Bytes → Bytes → Answer (Except Status Unit)
  callForeignFunction : Invocation → ForeignCall → Answer (Except Status Bytes)

structure SharedServices where
  getSharedData : Invocation → Bytes → Bytes → Answer (Except Status SharedValue)
  setSharedData : Invocation → Bytes → Bytes → Bytes → Option UInt32 → Answer (Except Status Unit)
  registerSharedQueue : Invocation → Bytes → Bytes → Answer (Except Status QueueId)
  resolveSharedQueue : Invocation → Bytes → Bytes → Answer (Except Status QueueId)
  enqueueSharedQueue : Invocation → QueueId → Bytes → Answer (Except Status Unit)
  dequeueSharedQueue : Invocation → QueueId → Answer (Except Status Bytes)
  defineMetric : Invocation → Bytes → MetricType → Bytes → Answer (Except Status MetricId)
  recordMetric : Invocation → MetricId → UInt64 → Answer (Except Status Unit)
  incrementMetric : Invocation → MetricId → Int64 → Answer (Except Status Unit)
  getMetric : Invocation → MetricId → Answer (Except Status UInt64)

structure Callouts where
  httpCall : Invocation → CalloutId → HttpCall → Answer (Except HttpCallRefusal Unit)
  grpcCall : Invocation → CalloutId → GrpcCall → Answer (Except GrpcOpenRefusal Unit)
  grpcStream : Invocation → CalloutId → GrpcStream → Answer (Except GrpcOpenRefusal Unit)
  grpcSend : Invocation → CalloutId → Bytes → Bool → Answer (Except Status Unit)
  grpcCancel : Invocation → CalloutId → Answer Unit
  grpcClose : Invocation → CalloutId → Answer Unit

/-- Everything outside the crate that one host function call can reach: the traits
    of the embedder, and the random source, which can fail. -/
structure World where
  stream : StreamState
  shared : SharedServices
  callouts : Callouts
  log : LogContext → LogLevel → Bytes → Answer Unit
  realtimeNanos : Answer UInt64
  monotonicNanos : Answer UInt64
  random : ℕ → Option Bytes

/-- An embedder that refuses whatever it is asked. -/
def World.refusing : World where
  stream :=
    { headerMap := fun _ _ _ => some (.error .notFound)
      buffer := fun _ _ _ => some (.error .notFound)
      continueStream := fun _ _ => some (.error .notFound)
      closeStream := fun _ _ => some (.error .notFound)
      sendLocalResponse := fun _ _ => some (.error .notFound)
      property := fun _ _ => some (.error .notFound)
      setProperty := fun _ _ _ => some (.error .notFound)
      callForeignFunction := fun _ _ => some (.error .notFound) }
  shared :=
    { getSharedData := fun _ _ _ => some (.error .notFound)
      setSharedData := fun _ _ _ _ _ => some (.error .notFound)
      registerSharedQueue := fun _ _ _ => some (.error .notFound)
      resolveSharedQueue := fun _ _ _ => some (.error .notFound)
      enqueueSharedQueue := fun _ _ _ => some (.error .notFound)
      dequeueSharedQueue := fun _ _ => some (.error .notFound)
      defineMetric := fun _ _ _ _ => some (.error .notFound)
      recordMetric := fun _ _ _ => some (.error .notFound)
      incrementMetric := fun _ _ _ => some (.error .notFound)
      getMetric := fun _ _ => some (.error .notFound) }
  callouts :=
    { httpCall := fun _ _ _ => some (.error .failed)
      grpcCall := fun _ _ _ => some (.error .failed)
      grpcStream := fun _ _ _ => some (.error .failed)
      grpcSend := fun _ _ _ _ => some (.error .notFound)
      grpcCancel := fun _ _ => some ()
      grpcClose := fun _ _ => some () }
  log _ _ _ := some ()
  realtimeNanos := some 0
  monotonicNanos := some 0
  random _ := none

/-! ## What a run makes visible -/

/-- A method of the stream state, or a write of a map that it lends, with what the guest
    passes. -/
inductive StreamOp where
  | headerMap (access : Access) (map : MapType)
  | writeMap (map : MapType) (write : Multimap.Write Bytes Bytes)
  | buffer (access : Access) (buffer : BufferType)
  | continueStream (stream : StreamType)
  | closeStream (stream : StreamType)
  | sendLocalResponse (response : LocalResponse)
  | property (path : List Bytes)
  | setProperty (path : List Bytes) (value : Bytes)
  | callForeignFunction (request : ForeignCall)
  deriving DecidableEq

inductive SharedOp where
  | getSharedData (vmId key : Bytes)
  | setSharedData (vmId key value : Bytes) (cas : Option UInt32)
  | registerSharedQueue (vmId name : Bytes)
  | resolveSharedQueue (vmId name : Bytes)
  | enqueueSharedQueue (queue : QueueId) (value : Bytes)
  | dequeueSharedQueue (queue : QueueId)
  | defineMetric (vmId : Bytes) (kind : MetricType) (name : Bytes)
  | recordMetric (metric : MetricId) (value : UInt64)
  | incrementMetric (metric : MetricId) (delta : Int64)
  | getMetric (metric : MetricId)
  deriving DecidableEq

/-- What a shared service answers when it accepts. -/
inductive SharedReply where
  | done
  | value (value : SharedValue)
  | queue (queue : QueueId)
  | bytes (bytes : Bytes)
  | metric (metric : MetricId)
  | number (value : UInt64)
  deriving DecidableEq

inductive CalloutOp where
  | httpCall (request : HttpCall)
  | grpcCall (request : GrpcCall)
  | grpcStream (request : GrpcStream)
  | grpcSend (message : Bytes) (endOfStream : Bool)
  | grpcCancel
  | grpcClose
  deriving DecidableEq

/-- The kind of callout an operation opens. -/
def CalloutOp.opens : CalloutOp → Option CalloutKind
  | .httpCall _ => some .httpCall
  | .grpcCall _ => some .grpcCall
  | .grpcStream _ => some .grpcStream
  | _ => none

end ProxyWasmHost
