/-
  What each call of the embedder delivers, to which callback, and what the parameters of
  that callback count.
-/
import ProxyWasmHost.CallScope.Stages
import ProxyWasmHost.Guest.Run

namespace ProxyWasmHost

open Prog Prologue

/-! ## The callbacks of the deliveries -/

/-- The callback that runs for a delivery. -/
def Delivery.callback (d : Delivery) : Callback :=
  match d.payload with
  | .httpCallResponse _ _ _ => .httpCallResponse
  | .grpcInitialMetadata _ => .grpcReceiveInitialMetadata
  | .grpcMessage _ => .grpcReceive
  | .grpcTrailingMetadata _ => .grpcReceiveTrailingMetadata
  | .grpcClose _ => .grpcClose
  | .foreignArguments _ => .foreignFunction

/-! ## What the parameters count -/

/-- What one parameter of a callback counts: the pairs of a map, or the bytes of a buffer. -/
inductive Counted where
  | pairs (which : DeliveredMap)
  | bytes (which : DeliveredBuffer)

/-- What a callback is told the numbers of, after its context and its identifier. -/
def Callback.counts : Callback → List Counted
  | .httpCallResponse =>
    [.pairs .httpCallResponseHeaders, .bytes .httpCallResponseBody,
      .pairs .httpCallResponseTrailers]
  | .grpcReceiveInitialMetadata => [.pairs .grpcCallInitialMetadata]
  | .grpcReceive => [.bytes .grpcCallMessage]
  | .grpcReceiveTrailingMetadata => [.pairs .grpcCallTrailingMetadata]
  | .foreignFunction => [.bytes .foreignFunctionArguments]
  | _ => []

/-- How many pairs or bytes of a delivery the guest reads. -/
def Delivery.number (d : Delivery) : Counted → Option ℕ
  | .pairs which => (d.map which).map List.length
  | .bytes which => (d.buffer which).map List.length

/-- The parameters count what the guest reads of the delivery. -/
def Delivery.CountedBy (d : Delivery) (params : List I32) : Prop :=
  List.Forall₂ (fun counted param => d.number counted = some param.toNat) d.callback.counts
    ((params.drop 2).take d.callback.counts.length)

/-! ## The deliveries of a call -/

/-- The deliveries that a call of the embedder makes: what it brings, or the failure of a
    callout that a deletion ends. -/
def Op.Brings : Op → Delivery → Prop
  | .onHttpCallResponse _ callout response _, d => d = .httpCallResponse callout response
  | .onGrpcReceiveInitialMetadata _ callout metadata _, d =>
    d = .grpcInitialMetadata callout metadata
  | .onGrpcReceive _ callout message _, d => d = .grpcMessage callout message
  | .onGrpcReceiveTrailingMetadata _ callout metadata _, d =>
    d = .grpcTrailingMetadata callout metadata
  | .onGrpcClose _ callout status _, d => d = .grpcClose callout status
  | .onForeignFunction _ _ arguments _, d => d = .foreignArguments arguments
  | .onDelete _ _ _, d =>
    ∃ callout, d = .httpCallResponse callout .failed ∨ d = .grpcClose callout ⟨cancelled, []⟩
  | _, _ => False

/-- A delivery that runs the callback of what it brings, with the counts of that. -/
structure Delivered.Faithful (call : Delivered) (brings : Delivery → Prop) : Prop where
  brings : brings call.delivery
  callback : call.callback = call.delivery.callback
  counted : call.delivery.CountedBy call.params

/-- What a check of a length finds. -/
theorem wireSize_finds {s : Session} {len : ℕ} :
    Finds (wireSize len) (fun size => size.toNat = len) s := by
  unfold wireSize
  refine Finds.require.bind fun _ hlen => .pure ?_
  rw [UInt32.toNat_ofNat']
  exact Nat.mod_eq_of_lt (by omega)

namespace Delivered.Faithful

variable {brings : Delivery → Prop} {c : ContextId} {callout : CalloutId} {ends : Bool}

theorem httpResponse {response : HttpCallResponse} {headers body trailers : I32}
    (hbrings : brings (.httpCallResponse callout response))
    (hheaders : headers.toNat = response.headers.length)
    (hbody : body.toNat = response.body.length)
    (htrailers : trailers.toNat = response.trailers.length) :
    Faithful ⟨c, some callout, .httpCallResponse callout response, .httpCallResponse,
      [c.wire, callout.wire, headers, body, trailers], ends⟩ brings :=
  ⟨hbrings, rfl, .cons (congrArg some hheaders.symm) (.cons (congrArg some hbody.symm)
    (.cons (congrArg some htrailers.symm) .nil))⟩

theorem grpcClose {status : GrpcStatus} (hbrings : brings (.grpcClose callout status)) :
    Faithful ⟨c, some callout, .grpcClose callout status, .grpcClose,
      [c.wire, callout.wire, status.code], ends⟩ brings :=
  ⟨hbrings, rfl, .nil⟩

/-- A delivery whose callback is told one number. -/
theorem single {d : Delivery} {callback : Callback} {id size : I32} {counted : Counted}
    {wire : Option CalloutId} (hbrings : brings d) (hcallback : callback = d.callback)
    (hcounts : d.callback.counts = [counted]) (hnumber : d.number counted = some size.toNat) :
    Faithful ⟨c, wire, d, callback, [c.wire, id, size], ends⟩ brings := by
  refine ⟨hbrings, hcallback, ?_⟩
  unfold Delivery.CountedBy
  rw [hcounts]
  exact .cons hnumber .nil

end Delivered.Faithful

end ProxyWasmHost
