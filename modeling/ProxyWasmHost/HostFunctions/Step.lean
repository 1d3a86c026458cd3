/-
  What one host function call can do to the state of a guest: a step relation, with
  the guards of the source, that every host function follows.
-/
import ProxyWasmHost.HostFunctions.Resource
import ProxyWasmHost.HostFunctions.Table

namespace ProxyWasmHost

/-- The name an operation asks an identifier for, as the guest's record keeps it. -/
def SharedOp.sharedName : SharedOp → Option SharedName
  | .registerSharedQueue _ name => some (.registered name)
  | .resolveSharedQueue vmId name => some (.resolved vmId name)
  | .defineMetric _ kind name => some (.metric kind.toI32 name)
  | _ => none

namespace AbiState

/-- The guest holds the identifier an operation presents. -/
def Holds (abi : AbiState) : SharedOp → Prop
  | .enqueueSharedQueue queue _ | .dequeueSharedQueue queue => queue ∈ abi.queues
  | .recordMetric metric _ | .incrementMetric metric _ | .getMetric metric =>
    metric ∈ abi.metrics
  | _ => True

/-- What an operation of the shared services leaves once it is answered. -/
def recordShared (abi : AbiState) (caller : ContextId) (op : SharedOp)
    (answer : Answer (Except Status SharedReply)) : AbiState :=
  match op, answer with
  | .registerSharedQueue _ name, some (.ok (.queue queue)) =>
    recordRegistered name caller queue abi
  | .resolveSharedQueue vmId name, some (.ok (.queue queue)) =>
    recordResolved vmId name caller queue abi
  | .defineMetric _ kind name, some (.ok (.metric metric)) =>
    recordDefined kind name caller metric abi
  | _, _ => abi

@[simp] theorem contexts_recordShared (abi : AbiState) (caller : ContextId) (op : SharedOp)
    (answer : Answer (Except Status SharedReply)) :
    (abi.recordShared caller op answer).contexts = abi.contexts := by
  unfold recordShared
  split
  · unfold recordRegistered
    dsimp only
    split
    · exact contexts_registerQueue _ _ _ _
    · rfl
  · rfl
  · rfl
  · rfl

@[simp] theorem callouts_recordShared (abi : AbiState) (caller : ContextId) (op : SharedOp)
    (answer : Answer (Except Status SharedReply)) :
    (abi.recordShared caller op answer).callouts = abi.callouts := by
  unfold recordShared
  split
  · unfold recordRegistered
    dsimp only
    split
    · exact callouts_registerQueue _ _ _ _
    · rfl
  · rfl
  · rfl
  · rfl

/-- Replaces the table of the contexts. -/
def withContexts (abi : AbiState) (contexts : ContextTable) : AbiState := { abi with contexts }

/-- Replaces the table of the callouts. -/
def withCallouts (abi : AbiState) (callouts : CalloutTable) : AbiState := { abi with callouts }

end AbiState

/-- The limits leave room for an operation: the guest holds the name it asks for, or fewer
    identifiers than it may. -/
def HostState.HasRoom (h : HostState) (op : SharedOp) : Prop :=
  ∀ name, op.sharedName = some name →
    h.abi.holdsSharedName name = true ∨ ∀ m ∈ h.limits.maxSharedNames, h.abi.sharedNames < m

/-- **One step of a host function.** Whatever reaches the embedder is done for the
    effective context of a guest that is not poisoned. -/
inductive HostStep : HostState → List Event → HostState → Prop
  | memory (h : HostState) (memory : Option Bytes) (allocator : Bool) :
      HostStep h [] { h with memory, allocator }
  | poison (h : HostState) : HostStep h [] h.poison
  | called {h : HostState} (live : h.poisoned = false) : HostStep h [.called h.abi] h
  | logged (h : HostState) (level : LogLevel) (message : Bytes) :
      HostStep h [.logged h.abi.logContext level message] h
  | announced (h : HostState) (buffer : BufferType) :
      HostStep h [] (h.mapAbi fun abi => (abi.takeAnnounced buffer).2)
  | stream {h : HostState} {c : ContextId} (op : StreamOp) (live : h.poisoned = false)
      (hc : h.abi.context = some c) (lent : h.abi.streamState.isSome)
      (asked : op.resource = none) :
      HostStep h [.stream (h.abi.invocation c) op] h
  | done {h : HostState} {c : ContextId} (heff : h.abi.contexts.effective = some c)
      (hdone : h.abi.contexts.done.1 = true) :
      HostStep h [.acknowledged c] (h.mapAbi fun abi => abi.withContexts abi.contexts.done.2)
  | setEffective {h : HostState} {current id : ContextId}
      (heff : h.abi.contexts.effective = some current)
      (hroot : h.abi.contexts.rootOf id = h.abi.contexts.rootOf current)
      (hrej : h.abi.contexts.isRejected id = false)
      (hid : (h.abi.contexts.setEffective id).1 = true) :
      HostStep h [] (h.mapAbi fun abi => abi.withContexts (abi.contexts.setEffective id).2)
  | tickPeriod {h : HostState} {c root : ContextId} (period : Option ℕ)
      (live : h.poisoned = false) (hc : h.abi.context = some c)
      (hroot : h.abi.contexts.rootOf c = some root)
      (hset : (h.abi.contexts.setTickPeriod c period).1 = true) :
      HostStep h [] (h.mapAbi fun abi =>
        (abi.withContexts (abi.contexts.setTickPeriod c period).2).noteTickPeriod root period)
  | settled (h : HostState) :
      HostStep h [.settled h.abi.services.shared] (h.mapAbi AbiState.settle)
  | shared {h : HostState} {c : ContextId} (op : SharedOp)
      (answer : Answer (Except Status SharedReply)) (live : h.poisoned = false)
      (hc : h.abi.context = some c)
      (hgranted : h.abi.grantedAgainst = some h.abi.services.shared)
      (hholds : h.abi.Holds op) (hroom : h.HasRoom op) :
      HostStep h [.shared h.abi.services.shared (h.abi.invocation c) op answer h.abi]
        (h.mapAbi fun abi => abi.recordShared c op answer)
  | opened {h : HostState} {c root : ContextId} {id : CalloutId} {reserved : CalloutTable}
      {kind : CalloutKind} {op : CalloutOp} (answer : Answer (Except Status Unit))
      (live : h.poisoned = false) (hc : h.abi.context = some c)
      (hroot : h.abi.contexts.rootOf c = some root) (hdel : h.abi.isDeleting c = false)
      (hlen : h.abi.callouts.len < h.limits.maxOpenCallouts)
      (hres : h.abi.callouts.reserve = some (id, reserved)) (hop : op.opens = some kind) :
      HostStep h [.callout h.abi.services.callouts (h.abi.invocation c) id op answer]
        (h.mapAbi fun abi => abi.withCallouts
          (if accepts answer then reserved.enter id (.new kind c root) else reserved))
  | sent {h : HostState} {id : CalloutId} {entry : Callout} (message : Bytes)
      (endOfStream : Bool) (answer : Answer (Except Status Unit)) (live : h.poisoned = false)
      (hc : h.abi.context = some entry.caller) (hget : h.abi.callouts.get id = some entry)
      (hkind : entry.kind = .grpcStream) (hopen : entry.closedByGuest = false) :
      HostStep h [.callout h.abi.services.callouts (h.abi.invocation entry.caller) id
          (.grpcSend message endOfStream) answer]
        (h.mapAbi fun abi => abi.withCallouts
          (if accepts answer && endOfStream then abi.callouts.closeByGuest id else abi.callouts))
  | cancelled {h : HostState} {id : CalloutId} {entry : Callout}
      (answer : Answer (Except Status Unit)) (live : h.poisoned = false)
      (hc : h.abi.context = some entry.caller) (hget : h.abi.callouts.get id = some entry)
      (hkind : entry.kind ≠ .httpCall) :
      HostStep h [.callout h.abi.services.callouts (h.abi.invocation entry.caller) id
          .grpcCancel answer]
        (h.mapAbi fun abi => abi.withCallouts (abi.callouts.remove id))
  | closed {h : HostState} {id : CalloutId} {entry : Callout}
      (answer : Answer (Except Status Unit)) (live : h.poisoned = false)
      (hc : h.abi.context = some entry.caller) (hget : h.abi.callouts.get id = some entry)
      (hkind : entry.kind = .grpcStream) (hopen : entry.closedByGuest = false) :
      HostStep h [.callout h.abi.services.callouts (h.abi.invocation entry.caller) id
          .grpcClose answer]
        (h.mapAbi fun abi => abi.withCallouts (abi.callouts.closeByGuest id))

end ProxyWasmHost
