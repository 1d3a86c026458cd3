/-
  The shared services of one process, held in memory.

  A method of the source takes the lock of its family once, and releases it at
  its end; `enqueue_shared_queue` alone goes on after that, with its call of
  the observer. What a method does under its lock is one function here, so
  several guests that use the store interleave these functions.
-/
import ProxyWasmHost.Lib.TreeMap
import ProxyWasmHost.Services

namespace ProxyWasmHost

open Std

attribute [local instance] lexOrd

/-- A VM id, and a name or a key of that VM. -/
abbrev Key := Bytes × Bytes

abbrev NonZeroU32 := { n : UInt32 // n ≠ 0 }

instance instTransOrdKey : TransOrd Key := inferInstance

theorem one_ne_zero : (1 : UInt32) ≠ 0 := by decide

/-- What the store allows a guest to hold. -/
structure InMemoryStoreLimits where
  valueBytes : ℕ
  keys : ℕ
  queueItems : ℕ
  queues : ℕ
  metrics : ℕ
  deriving DecidableEq

def InMemoryStoreLimits.default : InMemoryStoreLimits where
  valueBytes := 64 * 1024
  keys := 4096
  queueItems := 1024
  queues := 4096
  metrics := 4096

structure Queues where
  byName : ExtTreeMap Key QueueId
  owners : ExtTreeMap QueueId Key
  items : ExtTreeMap QueueId (List Bytes)
  next : ℕ

structure MetricEntry where
  kind : MetricType
  value : UInt64
  deriving DecidableEq

structure Metrics where
  byName : ExtTreeMap Key MetricId
  entries : ExtTreeMap MetricId MetricEntry
  next : ℕ

/-- The shared services of one process. -/
structure InMemoryStore where
  data : ExtTreeMap Key (Bytes × NonZeroU32)
  queues : Queues
  metrics : Metrics
  limits : InMemoryStoreLimits
  /-- Whether the embedder gave a function that hears of every item. -/
  observer : Bool

/-- One item that a queue got, as the observer hears of it. -/
structure QueueEnqueued where
  vmId : Bytes
  name : Bytes
  queue : QueueId
  deriving DecidableEq

/-- The next compare and swap number, which skips zero when it wraps. -/
def nextCas (current : NonZeroU32) : NonZeroU32 :=
  if h : current.val + 1 ≠ 0 then ⟨current.val + 1, h⟩ else ⟨1, one_ne_zero⟩

/-- The identifier after `next`, which is then the next one. -/
def nextId {kind : IdKind} (next : ℕ) : Option (Id kind) :=
  if h : next + 1 < 2 ^ 32 then some ⟨next + 1, Nat.succ_pos _, h⟩ else none

/-- `u64::checked_add_signed`. -/
def checkedAddSigned (value : UInt64) (delta : Int64) : Option UInt64 :=
  let sum := (value.toNat : ℤ) + delta.toInt
  if 0 ≤ sum ∧ sum < 2 ^ 64 then some (UInt64.ofNat sum.toNat) else none

namespace InMemoryStore

/-- A store that holds nothing. -/
def new (limits : InMemoryStoreLimits) (observer : Bool) : InMemoryStore where
  data := ∅
  queues := ⟨∅, ∅, ∅, 0⟩
  metrics := ⟨∅, ∅, 0⟩
  limits := limits
  observer := observer

/-! ## Shared data -/

def getSharedData (s : InMemoryStore) (vmId key : Bytes) : Except Status SharedValue :=
  match s.data[(vmId, key)]? with
  | some (bytes, cas) => .ok ⟨bytes, cas.val, cas.property⟩
  | none => .error .notFound

def setSharedData (s : InMemoryStore) (vmId key value : Bytes) (cas : Option UInt32) :
    Except Status Unit × InMemoryStore :=
  if s.limits.valueBytes < value.length then (.error .internalFailure, s)
  else if s.data[(vmId, key)]?.isNone ∧ s.limits.keys ≤ s.data.size then
    (.error .internalFailure, s)
  else
    match s.data[(vmId, key)]? with
    | some (_, current) =>
      if cas.any fun given => given ≠ current.val then (.error .casMismatch, s)
      else (.ok (), { s with data := s.data.insert (vmId, key) (value, nextCas current) })
    | none => (.ok (), { s with data := s.data.insert (vmId, key) (value, ⟨1, one_ne_zero⟩) })

/-! ## Shared queues -/

def registerSharedQueue (s : InMemoryStore) (vmId name : Bytes) :
    Except Status QueueId × InMemoryStore :=
  match s.queues.byName[(vmId, name)]? with
  | some id => (.ok id, s)
  | none =>
    if s.limits.queues ≤ s.queues.byName.size then (.error .internalFailure, s)
    else
      match nextId s.queues.next with
      | none => (.error .internalFailure, s)
      | some id =>
        (.ok id, { s with
          queues :=
            { byName := s.queues.byName.insert (vmId, name) id
              owners := s.queues.owners.insert id (vmId, name)
              items := s.queues.items.insert id []
              next := s.queues.next + 1 } })

def resolveSharedQueue (s : InMemoryStore) (vmId name : Bytes) : Except Status QueueId :=
  match s.queues.byName[(vmId, name)]? with
  | some id => .ok id
  | none => .error .notFound

/-- `enqueue_shared_queue` under the lock, with the owner of the queue that took the
    value. -/
def pushItem (s : InMemoryStore) (queue : QueueId) (value : Bytes) :
    Except Status (Option Key) × InMemoryStore :=
  if s.limits.valueBytes < value.length then (.error .internalFailure, s)
  else
    match s.queues.items[queue]? with
    | none => (.error .notFound, s)
    | some items =>
      if s.limits.queueItems ≤ items.length then (.error .internalFailure, s)
      else
        (.ok s.queues.owners[queue]?, { s with
          queues := { s.queues with items := s.queues.items.insert queue (items ++ [value]) } })

/-- What `enqueue_shared_queue` calls the observer with, once it has released the lock. -/
def notice (s : InMemoryStore) (queue : QueueId) (owner : Option Key) : Option QueueEnqueued :=
  match s.observer, owner with
  | true, some (vmId, name) => some ⟨vmId, name, queue⟩
  | _, _ => none

def dequeueSharedQueue (s : InMemoryStore) (queue : QueueId) :
    Except Status Bytes × InMemoryStore :=
  match s.queues.items[queue]? with
  | none => (.error .notFound, s)
  | some [] => (.error .empty, s)
  | some (value :: rest) =>
    (.ok value, { s with
      queues := { s.queues with items := s.queues.items.insert queue rest } })

/-! ## Metrics -/

def defineMetric (s : InMemoryStore) (vmId : Bytes) (kind : MetricType) (name : Bytes) :
    Except Status MetricId × InMemoryStore :=
  match s.metrics.byName[(vmId, name)]? with
  | some id =>
    match s.metrics.entries[id]? with
    | none => (.error .internalFailure, s)
    | some held => (if held.kind = kind then .ok id else .error .badArgument, s)
  | none =>
    if s.limits.metrics ≤ s.metrics.byName.size then (.error .internalFailure, s)
    else
      match nextId s.metrics.next with
      | none => (.error .internalFailure, s)
      | some id =>
        (.ok id, { s with
          metrics :=
            { byName := s.metrics.byName.insert (vmId, name) id
              entries := s.metrics.entries.insert id ⟨kind, 0⟩
              next := s.metrics.next + 1 } })

/-- Replaces the value of a metric. -/
def setMetric (s : InMemoryStore) (metric : MetricId) (entry : MetricEntry) : InMemoryStore :=
  { s with metrics := { s.metrics with entries := s.metrics.entries.insert metric entry } }

def recordMetric (s : InMemoryStore) (metric : MetricId) (value : UInt64) :
    Except Status Unit × InMemoryStore :=
  match s.metrics.entries[metric]? with
  | none => (.error .notFound, s)
  | some entry =>
    match entry.kind with
    | .counter | .gauge => (.ok (), s.setMetric metric { entry with value })
    | .histogram => (.ok (), s)

/-- Whether a metric of this kind takes `delta`. -/
def takesDelta : MetricType → Int64 → Bool
  | .counter, delta => 0 ≤ delta.toInt
  | .gauge, _ => true
  | .histogram, _ => false

def incrementMetric (s : InMemoryStore) (metric : MetricId) (delta : Int64) :
    Except Status Unit × InMemoryStore :=
  match s.metrics.entries[metric]? with
  | none => (.error .notFound, s)
  | some entry =>
    if takesDelta entry.kind delta then
      match checkedAddSigned entry.value delta with
      | none => (.error .badArgument, s)
      | some value => (.ok (), s.setMetric metric { entry with value })
    else (.error .badArgument, s)

def getMetric (s : InMemoryStore) (metric : MetricId) : Except Status UInt64 :=
  match s.metrics.entries[metric]? with
  | none => .error .notFound
  | some entry =>
    match entry.kind with
    | .histogram => .error .badArgument
    | .counter | .gauge => .ok entry.value

/-! ## The trait -/

/-- What the store answers to one call, and the store when the call gives its lock
    back. -/
def answer (s : InMemoryStore) : SharedOp → Except Status SharedReply × InMemoryStore
  | .getSharedData vmId key => ((s.getSharedData vmId key).map .value, s)
  | .setSharedData vmId key value cas =>
    ((s.setSharedData vmId key value cas).1.map fun _ => .done,
      (s.setSharedData vmId key value cas).2)
  | .registerSharedQueue vmId name =>
    ((s.registerSharedQueue vmId name).1.map .queue, (s.registerSharedQueue vmId name).2)
  | .resolveSharedQueue vmId name => ((s.resolveSharedQueue vmId name).map .queue, s)
  | .enqueueSharedQueue queue value =>
    ((s.pushItem queue value).1.map fun _ => .done, (s.pushItem queue value).2)
  | .dequeueSharedQueue queue =>
    ((s.dequeueSharedQueue queue).1.map .bytes, (s.dequeueSharedQueue queue).2)
  | .defineMetric vmId kind name =>
    ((s.defineMetric vmId kind name).1.map .metric, (s.defineMetric vmId kind name).2)
  | .recordMetric metric value =>
    ((s.recordMetric metric value).1.map fun _ => .done, (s.recordMetric metric value).2)
  | .incrementMetric metric delta =>
    ((s.incrementMetric metric delta).1.map fun _ => .done, (s.incrementMetric metric delta).2)
  | .getMetric metric => ((s.getMetric metric).map .number, s)

/-- What a call still owes the observer when it gives its lock back. -/
def owes (s : InMemoryStore) : SharedOp → Option QueueEnqueued
  | .enqueueSharedQueue queue value =>
    match (s.pushItem queue value).1 with
    | .ok owner => s.notice queue owner
    | .error _ => none
  | _ => none

/-- The store after calls whose locks were taken in this order. -/
def after (s : InMemoryStore) (ops : List SharedOp) : InMemoryStore :=
  ops.foldl (fun s op => (s.answer op).2) s

end InMemoryStore

end ProxyWasmHost
