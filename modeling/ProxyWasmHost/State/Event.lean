/-
  What a run makes visible: the callbacks, the changes of the tables, the calls of
  embedder code, and the states in which the guest calls the host.
-/
import ProxyWasmHost.State.Abi

namespace ProxyWasmHost

/-- One thing that happens in a run. -/
inductive Event where
  /-- The host begins a callback, with the callout it delivers; `abi` is the state
      before. -/
  | began (callback : Callback) (context : ContextId) (callout : Option CalloutId)
      (params : List I32) (exported : Bool) (abi : AbiState)
  /-- The guest calls a host function in the state `abi`. -/
  | called (abi : AbiState)
  /-- A callback is over, and left the state `abi`. -/
  | finished (abi : AbiState)
  /-- The callback that is over did not return. -/
  | unwound (callback : Callback) (context : ContextId)
  /-- The callback that is over answered `value`. -/
  | returned (callback : Callback) (context : ContextId) (value : I32)
  /-- A `proxy_done` is answered OK for the context. -/
  | acknowledged (context : ContextId)
  | created (id : ContextId) (parent : Option ContextId)
  /-- A context leaves the table, which `abi` still has it in. -/
  | deleted (id : ContextId) (abi : AbiState)
  /-- A delivery takes a callout out of the table. -/
  | ended (id : CalloutId) (entry : Option Callout)
  /-- A deletion takes callouts out of the table, with no delivery. -/
  | dropped (ids : List CalloutId)
  | logged (context : LogContext) (level : LogLevel) (message : Bytes)
  | stream (call : Invocation) (op : StreamOp)
  /-- The grants are settled against a shared service. -/
  | settled (service : ServiceId)
  /-- A shared service is asked in the state `abi`. -/
  | shared (service : ServiceId) (call : Invocation) (op : SharedOp)
      (answer : Answer (Except Status SharedReply)) (abi : AbiState)
  | callout (service : ServiceId) (call : Invocation) (id : CalloutId) (op : CalloutOp)
      (answer : Answer (Except Status Unit))

namespace Event

/-- Whether it happens while guest code runs. -/
def ofHost : Event → Bool
  | .called _ | .acknowledged _ | .logged _ _ _ | .stream _ _ | .settled _ | .shared _ _ _ _ _
  | .callout _ _ _ _ _ => true
  | _ => false

/-- The callback that an event begins, its context, and the state before. -/
def begun : Event → Option (Callback × ContextId × AbiState)
  | .began callback context _ _ _ abi => some (callback, context, abi)
  | _ => none

/-- The state of the guest that an event shows. -/
def snapshot : Event → Option AbiState
  | .began _ _ _ _ _ abi | .called abi | .finished abi | .deleted _ abi
  | .shared _ _ _ _ abi => some abi
  | _ => none

end Event

end ProxyWasmHost
