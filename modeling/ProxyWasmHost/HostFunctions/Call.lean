/-
  The steps every host function that reaches the embedder shares.
-/
import ProxyWasmHost.Runtime.Memory

namespace ProxyWasmHost

/-- What a host function body runs with: how the embedder answers, and the guest code
    the allocator runs for a size. -/
structure Env where
  world : World
  allocator : I32 → Host I32

/-- Decodes a map the guest wrote, under the limits the embedder set. -/
def guestPairs (bytes : Bytes) : Body (Except Codec.DecodeError (List Pair)) := do
  return Codec.decodePairs bytes (← Prog.read (·.limits.pairLimits))

/-- The effective context, refused when the guest rejected its root or the whole
    instance. -/
def context (absent : Status) : Body ContextId := do
  orStatus (← Prog.read (·.abi.context)) absent

/-- The call to report to the stream state that is installed. -/
def withStream (absent : Status) : Body Invocation := do
  let context ← context absent
  let call ← Prog.read (·.abi.invocation context)
  require (← Prog.read (·.abi.streamState.isSome)) absent
  return call

/-- Asks the stream state. -/
def askStream {α : Type} (call : Invocation) (op : StreamOp) (answer : Answer α) : Body α := do
  Prog.emit fun _ => .stream call op
  Prog.orPanic answer

/-- Drops the grants when the embedder has replaced the shared services. -/
def settle : Body Unit :=
  Prog.act (fun h => .settled h.abi.services.shared) (·.mapAbi AbiState.settle)

/-- The shared services to ask, after the grants are settled, and the call to
    report. -/
def withShared (absent : Status) : Body (ServiceId × Invocation) := do
  let shared ← Prog.read (·.abi.services.shared)
  settle
  let context ← context absent
  let call ← Prog.read (·.abi.invocation context)
  return (shared, call)

/-- Records what a service answered when it accepted. -/
def recorded {α : Type} (record : α → AbiState → AbiState) :
    Answer (Except Status α) → AbiState → AbiState
  | some (.ok a), abi => record a abi
  | _, abi => abi

/-- Asks the shared services `shared`, and records what they answer when they
    accept. -/
def askShared {α : Type} (shared : ServiceId) (call : Invocation) (op : SharedOp)
    (reply : α → SharedReply) (record : α → AbiState → AbiState)
    (answer : Answer (Except Status α)) : Body (Except Status α) := do
  Prog.act (fun h => .shared shared call op (answer.map fun a => a.map reply) h.abi)
    (·.mapAbi (recorded record answer))
  Prog.orPanic answer

/-- Whether a service accepted what it was asked. -/
def accepts : Answer (Except Status Unit) → Bool
  | some (.ok ()) => true
  | _ => false

/-- Asks the callout service about `callout`, and records in the table whether it
    accepted. -/
def askCallout (call : Invocation) (callout : CalloutId) (op : CalloutOp)
    (record : Bool → CalloutTable → CalloutTable) (answer : Answer (Except Status Unit)) :
    Body (Except Status Unit) := do
  Prog.act (fun h => .callout h.abi.services.callouts call callout op answer)
    (·.mapAbi fun abi => { abi with callouts := record (accepts answer) abi.callouts })
  Prog.orPanic answer

/-- Refuses a name or a key that is longer than the embedder allows. -/
def withinNameBytes (name : Bytes) (refusal : Status) : Body Unit := do
  let max ← Prog.read (·.limits.maxNameBytes)
  require (∀ m ∈ max, name.length ≤ m) refusal

/-- Refuses a new queue or metric to a guest that holds as many as the embedder
    allows. -/
def withinSharedNames : Body Unit := do
  let max ← Prog.read (·.limits.maxSharedNames)
  let held ← Prog.read (·.abi.sharedNames)
  require (∀ m ∈ max, held < m) .internalFailure

/-- Something the crate serves itself, or asks the embedder for. -/
inductive Served (α : Type) where
  | crate (what : α)
  | embedder

/-- Writes `bytes` into the guest at the return pointers. -/
def Env.writeReturn (env : Env) (bytes : Bytes) (returnData returnSize : GuestPtr) : Body Unit :=
  ProxyWasmHost.writeReturn env.allocator bytes returnData returnSize

/-- The bytes of a range of the memory. -/
def readSlice (memory : Bytes) (range : GuestSlice) : Body Bytes :=
  checked (GuestMemory.read memory range)

/-- Checks a pointer the host will write a word at. -/
def checkWord (memory : Bytes) (ptr : GuestPtr) : Body Unit := do
  let _ ← checked (GuestMemory.readU32 memory ptr)

def writeU32 (ptr : GuestPtr) (value : UInt32) : Body Unit :=
  writeMemory (GuestMemory.writeU32 · ptr value)

def writeU64 (ptr : GuestPtr) (value : UInt64) : Body Unit :=
  writeMemory (GuestMemory.writeU64 · ptr value)

end ProxyWasmHost
