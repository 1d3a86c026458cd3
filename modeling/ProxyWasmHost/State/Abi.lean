/-
  The state the ABI layer keeps for one instance, and the data of the store it
  is kept in.
-/
import ProxyWasmHost.State.Delivery

namespace ProxyWasmHost

open Std

/-- A stream state an embedder lends: the one that holds nothing, or a value of one
    of its types. -/
inductive Lent where
  | noStream
  | value (type value : ℕ)
  deriving DecidableEq

/-- Everything ABI v0.2.1 keeps for one instance. -/
structure AbiState where
  guest : GuestId
  services : VmServices
  streamState : Option Lent
  contexts : ContextTable
  currentCallback : Option Callback
  queues : Finset QueueId
  metrics : Finset MetricId
  heldNames : Finset SharedName
  vmStarted : Bool
  grantedAgainst : Option ServiceId
  registrants : ExtTreeMap QueueId (ExtTreeSet ContextId)
  callouts : CalloutTable
  announced : Option (BufferType × UInt32)
  deleting : Option ContextId
  delivery : Option Delivery
  changes : Changes

namespace AbiState

def new (guest : GuestId) (services : VmServices) : AbiState where
  guest := guest
  services := services
  streamState := none
  contexts := .new
  currentCallback := none
  queues := ∅
  metrics := ∅
  heldNames := ∅
  vmStarted := false
  grantedAgainst := none
  registrants := ∅
  callouts := .new
  announced := none
  deleting := none
  delivery := none
  changes := .none

/-- Drops the grants when the shared services are not the ones that issued them. -/
def settle (abi : AbiState) : AbiState :=
  let shared := abi.services.shared
  if abi.grantedAgainst = some shared then abi
  else
    { abi with
      queues := ∅
      metrics := ∅
      heldNames := ∅
      registrants := ∅
      changes := { abi.changes with queues := ∅ }
      grantedAgainst := some shared }

def holdsQueue (abi : AbiState) (queue : QueueId) : Bool := queue ∈ abi.queues

def holdsMetric (abi : AbiState) (metric : MetricId) : Bool := metric ∈ abi.metrics

def holdsSharedName (abi : AbiState) (name : SharedName) : Bool := name ∈ abi.heldNames

def grantQueue (abi : AbiState) (queue : QueueId) : AbiState :=
  { abi with queues := insert queue abi.queues }

def grantMetric (abi : AbiState) (metric : MetricId) : AbiState :=
  { abi with metrics := insert metric abi.metrics }

def holdSharedName (abi : AbiState) (name : SharedName) : AbiState :=
  { abi with heldNames := insert name abi.heldNames }

/-- How many queue and metric identifiers this guest holds. -/
def sharedNames (abi : AbiState) : ℕ := satAdd abi.queues.card abi.metrics.card

/-- The roots that registered `queue`, whatever services it came from. -/
def registered (abi : AbiState) (queue : QueueId) : ExtTreeSet ContextId :=
  abi.registrants[queue]?.getD ∅

/-- Records that a context of `root` registered `queue`, and reports it as a change
    the first time. -/
def registerQueue (abi : AbiState) (queue : QueueId) (root : ContextId) (name : Bytes) :
    AbiState :=
  if (abi.registered queue).contains root then abi
  else
    { abi with
      registrants := abi.registrants.insert queue ((abi.registered queue).insert root)
      changes := { abi.changes with queues := insert ⟨queue, root, name⟩ abi.changes.queues } }

/-- Whether the shared services are the ones that issued the grants. -/
def grantsAreCurrent (abi : AbiState) : Bool := abi.grantedAgainst = some abi.services.shared

/-- The roots whose contexts registered `queue` with the shared services the guest
    has. -/
def registrantsOf (abi : AbiState) (queue : QueueId) : List ContextId :=
  if abi.grantsAreCurrent then (abi.registered queue).toList else []

/-- Removes a deleted root from every queue it registered. -/
def forgetRegistrant (abi : AbiState) (root : ContextId) : AbiState :=
  { abi with
    registrants := abi.registrants.filterMap fun _ roots =>
      let roots := roots.erase root
      if roots.isEmpty then none else some roots }

def noteTickPeriod (abi : AbiState) (root : ContextId) (period : Option ℕ) : AbiState :=
  { abi with
    changes := { abi.changes with tickPeriods := abi.changes.tickPeriods.insert root period } }

/-- The changes since the last call, without the queues of shared services that the
    guest does not have. -/
def takeChanges (abi : AbiState) : Changes × AbiState :=
  (if abi.grantsAreCurrent then abi.changes else { abi.changes with queues := ∅ },
    { abi with changes := .none })

def isDeleting (abi : AbiState) (context : ContextId) : Bool := abi.deleting = some context

/-- The size announced for `buffer`, and the state without it. -/
def takeAnnounced (abi : AbiState) (buffer : BufferType) : Option UInt32 × AbiState :=
  match abi.announced with
  | none => (none, abi)
  | some (kind, size) =>
    if kind ≠ buffer then (none, abi) else (some size, { abi with announced := none })

/-- The call an embedder is told about, from `context`. -/
def invocation (abi : AbiState) (context : ContextId) : Invocation where
  guest := abi.guest
  context := context
  callback := abi.currentCallback
  callout := abi.delivery.bind (·.callout)

/-- The effective context, unless the guest rejected its root or the whole instance. -/
def context (abi : AbiState) : Option ContextId :=
  match abi.contexts.effective with
  | some context => if abi.contexts.rejectionOf context = none then some context else none
  | none => none

/-- The state a log line is written in: outside a callback, or with no effective
    context, only the guest is known. -/
def logContext (abi : AbiState) : LogContext :=
  match abi.currentCallback, abi.contexts.effective with
  | some _, some effective =>
    let plugin := (abi.contexts.rootOf effective).bind abi.contexts.plugin
    { vmId := abi.services.vmId
      guest := abi.guest
      pluginName := plugin.map (·.name)
      rootId := plugin.map (·.rootId)
      call := some (abi.invocation effective) }
  | _, _ =>
    { vmId := abi.services.vmId
      guest := abi.guest
      pluginName := none
      rootId := none
      call := none }

/-! ## What the operations leave alone -/

@[simp] theorem contexts_settle (abi : AbiState) : abi.settle.contexts = abi.contexts := by
  unfold settle
  dsimp only
  split <;> rfl

@[simp] theorem callouts_settle (abi : AbiState) : abi.settle.callouts = abi.callouts := by
  unfold settle
  dsimp only
  split <;> rfl

@[simp] theorem contexts_registerQueue (abi : AbiState) (queue : QueueId) (root : ContextId)
    (name : Bytes) : (abi.registerQueue queue root name).contexts = abi.contexts := by
  unfold registerQueue
  split <;> rfl

@[simp] theorem callouts_registerQueue (abi : AbiState) (queue : QueueId) (root : ContextId)
    (name : Bytes) : (abi.registerQueue queue root name).callouts = abi.callouts := by
  unfold registerQueue
  split <;> rfl

/-- Only what was announced is taken. -/
theorem takeAnnounced_eq (abi : AbiState) (buffer : BufferType) :
    ∃ announced, (abi.takeAnnounced buffer).2 = { abi with announced } := by
  unfold takeAnnounced
  split
  · exact ⟨_, rfl⟩
  · split
    · exact ⟨_, rfl⟩
    · exact ⟨none, rfl⟩

@[simp] theorem contexts_takeAnnounced (abi : AbiState) (buffer : BufferType) :
    (abi.takeAnnounced buffer).2.contexts = abi.contexts := by
  obtain ⟨announced, heq⟩ := abi.takeAnnounced_eq buffer
  rw [heq]

@[simp] theorem callouts_takeAnnounced (abi : AbiState) (buffer : BufferType) :
    (abi.takeAnnounced buffer).2.callouts = abi.callouts := by
  obtain ⟨announced, heq⟩ := abi.takeAnnounced_eq buffer
  rw [heq]

end AbiState

/-- What one guest may use. -/
structure Limits where
  pairLimits : Codec.PairLimits
  maxSharedNames : Option ℕ
  maxNameBytes : Option ℕ
  maxLogBytes : Option ℕ
  maxOpenCallouts : ℕ
  deriving DecidableEq

/-- The data of one instance's store, with the bytes of the memory it has a handle
    to. -/
structure HostState where
  limits : Limits
  memory : Option Bytes
  allocator : Bool
  poisoned : Bool
  abi : AbiState

namespace HostState

def new (limits : Limits) (abi : AbiState) : HostState where
  limits := limits
  memory := none
  allocator := false
  poisoned := false
  abi := abi

def poison (h : HostState) : HostState := { h with poisoned := true }

/-- Replaces the bytes of the memory, once the store has a handle to it. -/
def setMemory (h : HostState) (memory : Bytes) : HostState :=
  { h with memory := h.memory.map fun _ => memory }

def mapAbi (h : HostState) (f : AbiState → AbiState) : HostState := { h with abi := f h.abi }

end HostState

end ProxyWasmHost
