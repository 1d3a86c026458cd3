/-
  What the running delivery serves to the guest, and the changes the guest made
  that the embedder has not read yet.
-/
import ProxyWasmHost.Context.Table
import ProxyWasmHost.Callout.Table

namespace ProxyWasmHost

open Std

/-- A map that a delivery serves. -/
inductive DeliveredMap where
  | httpCallResponseHeaders
  | httpCallResponseTrailers
  | grpcCallInitialMetadata
  | grpcCallTrailingMetadata
  deriving DecidableEq

inductive DeliveredBuffer where
  | httpCallResponseBody
  | grpcCallMessage
  | foreignFunctionArguments
  deriving DecidableEq

def servesMap : MapType → Option DeliveredMap
  | .httpCallResponseHeaders => some .httpCallResponseHeaders
  | .httpCallResponseTrailers => some .httpCallResponseTrailers
  | .grpcCallInitialMetadata => some .grpcCallInitialMetadata
  | .grpcCallTrailingMetadata => some .grpcCallTrailingMetadata
  | _ => none

def servesBuffer : BufferType → Option DeliveredBuffer
  | .httpCallResponseBody => some .httpCallResponseBody
  | .grpcCallMessage => some .grpcCallMessage
  | .foreignFunctionArguments => some .foreignFunctionArguments
  | _ => none

inductive Payload where
  | httpCallResponse (headers trailers : List Pair) (body : Bytes)
  | grpcInitialMetadata (map : List Pair)
  | grpcMessage (message : Bytes)
  | grpcTrailingMetadata (map : List Pair)
  | grpcClose (status : GrpcStatus)
  | foreignArguments (arguments : Bytes)
  deriving DecidableEq

/-- What the running callback was called for. -/
structure Delivery where
  callout : Option CalloutId
  payload : Payload
  deriving DecidableEq

namespace Delivery

def httpCallResponse (callout : CalloutId) (response : HttpCallResponse) : Delivery :=
  ⟨some callout, .httpCallResponse response.headers response.trailers response.body⟩

def grpcInitialMetadata (callout : CalloutId) (metadata : List Pair) : Delivery :=
  ⟨some callout, .grpcInitialMetadata metadata⟩

def grpcMessage (callout : CalloutId) (message : Bytes) : Delivery :=
  ⟨some callout, .grpcMessage message⟩

def grpcTrailingMetadata (callout : CalloutId) (metadata : List Pair) : Delivery :=
  ⟨some callout, .grpcTrailingMetadata metadata⟩

def grpcClose (callout : CalloutId) (status : GrpcStatus) : Delivery :=
  ⟨some callout, .grpcClose status⟩

def foreignArguments (arguments : Bytes) : Delivery := ⟨none, .foreignArguments arguments⟩

def map (d : Delivery) (which : DeliveredMap) : Option (List Pair) :=
  match d.payload, which with
  | .httpCallResponse headers _ _, .httpCallResponseHeaders => some headers
  | .httpCallResponse _ trailers _, .httpCallResponseTrailers => some trailers
  | .grpcInitialMetadata map, .grpcCallInitialMetadata => some map
  | .grpcTrailingMetadata map, .grpcCallTrailingMetadata => some map
  | _, _ => none

def buffer (d : Delivery) (which : DeliveredBuffer) : Option Bytes :=
  match d.payload, which with
  | .httpCallResponse _ _ body, .httpCallResponseBody => some body
  | .grpcMessage message, .grpcCallMessage => some message
  | .foreignArguments arguments, .foreignFunctionArguments => some arguments
  | _, _ => none

def status (d : Delivery) : Option (UInt32 × Bytes) :=
  match d.payload with
  | .grpcClose status => some (status.code, status.message)
  | .foreignArguments _ => none
  | _ => some (0, [])

end Delivery

structure QueueRegistration where
  queue : QueueId
  root : ContextId
  name : Bytes
  deriving DecidableEq

/-- What a guest changed since the embedder last asked. -/
structure Changes where
  tickPeriods : ExtTreeMap ContextId (Option ℕ)
  queues : Finset QueueRegistration

def Changes.none : Changes := ⟨∅, ∅⟩

/-- A name that gave the guest an identifier. -/
inductive SharedName where
  | registered (name : Bytes)
  | resolved (vmId name : Bytes)
  | metric (kind : I32) (name : Bytes)
  deriving DecidableEq

end ProxyWasmHost
