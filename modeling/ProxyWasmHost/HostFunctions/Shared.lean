/-
  The host functions of the shared services: shared data, queues and metrics.
-/
import ProxyWasmHost.HostFunctions.Call

namespace ProxyWasmHost

/-- Records nothing. -/
def recordNothing {α : Type} (_ : ContextId) (_ : α) (abi : AbiState) : AbiState := abi

/-- Asks the shared services once the grants are settled and `limits` allows it, and
    records what they answer for the context of the call. -/
def askWithin {α : Type} (limits : Body Unit) (op : SharedOp) (reply : α → SharedReply)
    (record : ContextId → α → AbiState → AbiState)
    (answer : Invocation → Answer (Except Status α)) : Body α := do
  let asked ← withShared .notFound
  limits
  let answer ← askShared asked.1 asked.2 op reply (record asked.2.context) (answer asked.2)
  fromEmbedder answer

/-- Asks the shared services about an identifier that the guest has to hold. -/
def askHeld {α : Type} (holds : AbiState → Bool) (op : SharedOp) (reply : α → SharedReply)
    (answer : Invocation → Answer (Except Status α)) : Body α := do
  settle
  require (← Prog.read fun h => holds h.abi) .notFound
  askWithin (return ()) op reply recordNothing answer

/-! ## Shared data -/

def proxySetSharedData (env : Env) (keyData keySize valueData valueSize cas : I32) : Body Unit := do
  let key ← slice keyData keySize
  let value ← slice valueData valueSize
  let cas := if cas = 0 then none else some cas
  let memory ← split
  let key ← readSlice memory key
  let value ← readSlice memory value
  let vmId ← Prog.read (·.abi.services.vmId)
  askWithin (withinNameBytes key .internalFailure) (.setSharedData vmId key value cas)
    (fun _ => .done) recordNothing
    (env.world.shared.setSharedData · vmId key value cas)

def proxyGetSharedData (env : Env)
    (keyData keySize returnValueData returnValueSize returnCas : I32) : Body Unit := do
  let key ← slice keyData keySize
  let memory ← split
  checkWord memory returnValueData
  checkWord memory returnValueSize
  checkWord memory returnCas
  let key ← readSlice memory key
  let vmId ← Prog.read (·.abi.services.vmId)
  let value ← askWithin (withinNameBytes key .notFound) (.getSharedData vmId key) .value
    recordNothing (env.world.shared.getSharedData · vmId key)
  env.writeReturn value.bytes returnValueData returnValueSize
  writeU32 returnCas value.cas

/-! ## Queues -/

/-- Refuses a name that would give the guest one identifier too many. -/
def withinSharedNamesUnlessHeld (name : SharedName) : Body Unit := do
  if ← Prog.read (·.abi.holdsSharedName name) then return () else withinSharedNames

/-- The two limits of a name that may give the guest an identifier. -/
def withinNames (name : Bytes) (held : SharedName) : Body Unit := do
  withinNameBytes name .internalFailure
  withinSharedNamesUnlessHeld held

/-- What a registration of `queue` leaves: the grant, the name, and the root of the
    caller among the registrants. -/
def recordRegistered (name : Bytes) (caller : ContextId) (queue : QueueId) (abi : AbiState) :
    AbiState :=
  let abi := (abi.grantQueue queue).holdSharedName (.registered name)
  match abi.contexts.rootOf caller with
  | some root => abi.registerQueue queue root name
  | none => abi

def proxyRegisterSharedQueue (env : Env) (nameData nameSize returnQueueId : I32) : Body Unit := do
  let name ← slice nameData nameSize
  let memory ← split
  checkWord memory returnQueueId
  let name ← readSlice memory name
  let vmId ← Prog.read (·.abi.services.vmId)
  let queue ← askWithin (withinNames name (.registered name)) (.registerSharedQueue vmId name)
    .queue (recordRegistered name) (env.world.shared.registerSharedQueue · vmId name)
  writeU32 returnQueueId queue.wire

def recordResolved (vmId name : Bytes) (_ : ContextId) (queue : QueueId) (abi : AbiState) :
    AbiState :=
  (abi.holdSharedName (.resolved vmId name)).grantQueue queue

def proxyResolveSharedQueue (env : Env)
    (vmIdData vmIdSize nameData nameSize returnQueueId : I32) : Body Unit := do
  let vmId ← slice vmIdData vmIdSize
  let name ← slice nameData nameSize
  let memory ← split
  checkWord memory returnQueueId
  let vmId ← readSlice memory vmId
  let name ← readSlice memory name
  -- The C++ host reads an empty VM id as the VM of the caller.
  let own ← Prog.read (·.abi.services.vmId)
  let vmId := if vmId = [] then own else vmId
  let queue ← askWithin (withinNames name (.resolved vmId name)) (.resolveSharedQueue vmId name)
    .queue (recordResolved vmId name) (env.world.shared.resolveSharedQueue · vmId name)
  writeU32 returnQueueId queue.wire

def proxyEnqueueSharedQueue (env : Env) (queueId valueData valueSize : I32) : Body Unit := do
  let queue ← orStatus (Id.tryFrom queueId) .notFound
  let value ← slice valueData valueSize
  let value ← readSlice (← split) value
  askHeld (·.holdsQueue queue) (.enqueueSharedQueue queue value) (fun _ => .done)
    (env.world.shared.enqueueSharedQueue · queue value)

def proxyDequeueSharedQueue (env : Env) (queueId returnValueData returnValueSize : I32) :
    Body Unit := do
  let queue ← orStatus (Id.tryFrom queueId) .notFound
  let memory ← split
  checkWord memory returnValueData
  checkWord memory returnValueSize
  let value ← askHeld (·.holdsQueue queue) (.dequeueSharedQueue queue) .bytes
    (env.world.shared.dequeueSharedQueue · queue)
  env.writeReturn value returnValueData returnValueSize

/-! ## Metrics -/

def recordDefined (kind : MetricType) (name : Bytes) (_ : ContextId) (metric : MetricId)
    (abi : AbiState) : AbiState :=
  (abi.grantMetric metric).holdSharedName (.metric kind.toI32 name)

def proxyDefineMetric (env : Env) (metricType nameData nameSize returnMetricId : I32) :
    Body Unit := do
  let kind ← orStatus (MetricType.tryFrom metricType) .badArgument
  let name ← slice nameData nameSize
  let memory ← split
  checkWord memory returnMetricId
  let name ← readSlice memory name
  let vmId ← Prog.read (·.abi.services.vmId)
  let metric ← askWithin (withinNames name (.metric kind.toI32 name))
    (.defineMetric vmId kind name) .metric (recordDefined kind name)
    (env.world.shared.defineMetric · vmId kind name)
  writeU32 returnMetricId metric.wire

def proxyRecordMetric (env : Env) (metricId : I32) (value : I64) : Body Unit := do
  let metric ← orStatus (Id.tryFrom metricId) .notFound
  let _ ← split
  askHeld (·.holdsMetric metric) (.recordMetric metric value) (fun _ => .done)
    (env.world.shared.recordMetric · metric value)

def proxyIncrementMetric (env : Env) (metricId : I32) (delta : I64) : Body Unit := do
  let metric ← orStatus (Id.tryFrom metricId) .notFound
  let _ ← split
  askHeld (·.holdsMetric metric) (.incrementMetric metric delta.toInt64) (fun _ => .done)
    (env.world.shared.incrementMetric · metric delta.toInt64)

def proxyGetMetric (env : Env) (metricId returnValue : I32) : Body Unit := do
  let metric ← orStatus (Id.tryFrom metricId) .notFound
  let memory ← split
  let _ ← checked (GuestMemory.readU64 memory returnValue)
  let value ← askHeld (·.holdsMetric metric) (.getMetric metric) .number
    (env.world.shared.getMetric · metric)
  writeU64 returnValue value

end ProxyWasmHost
