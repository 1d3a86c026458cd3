/-
  The identifiers, the enumerations and the errors of ABI v0.2.1.

  A guest passes an `i32`. Its bits are kept as an `I32`, so a cast between
  signed and unsigned changes nothing.
-/
import ProxyWasmHost.Codec.Pairs

namespace ProxyWasmHost

abbrev I32 := UInt32
abbrev I64 := UInt64

/-! ## Identifiers -/

inductive IdKind where
  | context
  | callout
  | queue
  | metric
  deriving DecidableEq

/-- A `NonZeroU32` that identifies something of one kind. -/
@[ext] structure Id (kind : IdKind) where
  val : ℕ
  pos : 0 < val
  lt : val < 2 ^ 32
  deriving DecidableEq

abbrev ContextId := Id .context
abbrev CalloutId := Id .callout
abbrev QueueId := Id .queue
abbrev MetricId := Id .metric

/-- The identity of one guest. -/
abbrev GuestId := ℕ

namespace Id

variable {kind : IdKind}

/-- `NonZeroU32::MIN`. -/
def min : Id kind := ⟨1, by decide, by decide⟩

def tryFrom (value : I32) : Option (Id kind) :=
  if h : 0 < value.toNat then some ⟨value.toNat, h, value.toNat_lt⟩ else none

/-- The identifier as the guest receives it. -/
def wire (id : Id kind) : I32 := UInt32.ofNat id.val

/-- `NonZeroU32::checked_add(1)`. -/
def checkedSucc (id : Id kind) : Option (Id kind) :=
  if h : id.val + 1 < 2 ^ 32 then some ⟨id.val + 1, Nat.succ_pos _, h⟩ else none

instance : Ord (Id kind) := ⟨fun a b => compare a.val b.val⟩

instance : Std.TransOrd (Id kind) where
  eq_swap {a b} := @Std.OrientedCmp.eq_swap ℕ compare _ a.val b.val
  isLE_trans {a b c} := @Std.TransCmp.isLE_trans ℕ compare _ a.val b.val c.val

instance : Std.LawfulEqOrd (Id kind) where
  eq_of_compare {a b} h := Id.ext (@Std.LawfulEqCmp.eq_of_compare ℕ compare _ a.val b.val h)

theorem val_of_checkedSucc {id id' : Id kind} (h : id.checkedSucc = some id') :
    id'.val = id.val + 1 := by
  unfold checkedSucc at h
  split at h
  · cases h; rfl
  · cases h

theorem val_of_tryFrom {value : I32} {id : Id kind} (h : tryFrom value = some id) :
    id.val = value.toNat := by
  unfold tryFrom at h
  split at h
  · cases h; rfl
  · cases h

end Id

/-! ## Enumerations -/

inductive LogLevel where
  | trace | debug | info | warn | error | critical
  deriving DecidableEq

inductive Status where
  | ok | notFound | badArgument | serializationFailure | parseFailure | invalidMemoryAccess
  | empty | casMismatch | internalFailure | unimplemented
  deriving DecidableEq

inductive Action where
  | continue | pause
  deriving DecidableEq

inductive BufferType where
  | httpRequestBody | httpResponseBody | downstreamData | upstreamData | httpCallResponseBody
  | grpcCallMessage | vmConfiguration | pluginConfiguration | foreignFunctionArguments
  deriving DecidableEq

inductive MapType where
  | httpRequestHeaders | httpRequestTrailers | httpResponseHeaders | httpResponseTrailers
  | grpcCallInitialMetadata | grpcCallTrailingMetadata | httpCallResponseHeaders
  | httpCallResponseTrailers
  deriving DecidableEq

inductive PeerType where
  | unknown | local | remote
  deriving DecidableEq

inductive StreamType where
  | httpRequest | httpResponse | downstream | upstream
  deriving DecidableEq

inductive MetricType where
  | counter | gauge | histogram
  deriving DecidableEq

def LogLevel.toI32 : LogLevel → I32
  | .trace => 0 | .debug => 1 | .info => 2 | .warn => 3 | .error => 4 | .critical => 5

def LogLevel.tryFrom (value : I32) : Option LogLevel :=
  match value.toNat with
  | 0 => some .trace | 1 => some .debug | 2 => some .info | 3 => some .warn | 4 => some .error
  | 5 => some .critical | _ => none

def Status.toI32 : Status → I32
  | .ok => 0 | .notFound => 1 | .badArgument => 2 | .serializationFailure => 3
  | .parseFailure => 4 | .invalidMemoryAccess => 6 | .empty => 7 | .casMismatch => 8
  | .internalFailure => 10 | .unimplemented => 12

def Action.toI32 : Action → I32
  | .continue => 0 | .pause => 1

def Action.tryFrom (value : I32) : Option Action :=
  match value.toNat with
  | 0 => some .continue | 1 => some .pause | _ => none

def BufferType.tryFrom (value : I32) : Option BufferType :=
  match value.toNat with
  | 0 => some .httpRequestBody | 1 => some .httpResponseBody | 2 => some .downstreamData
  | 3 => some .upstreamData | 4 => some .httpCallResponseBody | 5 => some .grpcCallMessage
  | 6 => some .vmConfiguration | 7 => some .pluginConfiguration
  | 8 => some .foreignFunctionArguments | _ => none

def MapType.tryFrom (value : I32) : Option MapType :=
  match value.toNat with
  | 0 => some .httpRequestHeaders | 1 => some .httpRequestTrailers
  | 2 => some .httpResponseHeaders | 3 => some .httpResponseTrailers
  | 4 => some .grpcCallInitialMetadata | 5 => some .grpcCallTrailingMetadata
  | 6 => some .httpCallResponseHeaders | 7 => some .httpCallResponseTrailers | _ => none

def PeerType.toI32 : PeerType → I32
  | .unknown => 0 | .local => 1 | .remote => 2

def StreamType.tryFrom (value : I32) : Option StreamType :=
  match value.toNat with
  | 0 => some .httpRequest | 1 => some .httpResponse | 2 => some .downstream
  | 3 => some .upstream | _ => none

def MetricType.toI32 : MetricType → I32
  | .counter => 0 | .gauge => 1 | .histogram => 2

def MetricType.tryFrom (value : I32) : Option MetricType :=
  match value.toNat with
  | 0 => some .counter | 1 => some .gauge | 2 => some .histogram | _ => none

/-- A callback the host runs in the guest. -/
inductive Callback where
  | contextCreate | vmStart | configure | newConnection | downstreamData
  | downstreamConnectionClose | upstreamData | upstreamConnectionClose | requestHeaders
  | requestBody | requestTrailers | responseHeaders | responseBody | responseTrailers
  | httpCallResponse | grpcReceiveInitialMetadata | grpcReceive | grpcReceiveTrailingMetadata
  | grpcClose | done | log | delete | tick | queueReady | foreignFunction
  deriving DecidableEq

inductive ContextType where
  | root | stream
  deriving DecidableEq

inductive StreamKind where
  | tcp | http
  deriving DecidableEq

inductive ContextState where
  | active | pending | done
  deriving DecidableEq

inductive CalloutKind where
  | httpCall | grpcCall | grpcStream
  deriving DecidableEq

/-! ## Errors -/

inductive MemoryError where
  | rangeOverflow (ptr len : ℕ)
  | outOfBounds (ptr len memorySize : ℕ)
  | lengthMismatch (expected actual : ℕ)
  deriving DecidableEq

inductive Limit where
  | epoch | fuel | stack
  deriving DecidableEq

/-- The failures of a guest that is built, and of the calls into it. -/
inductive Error where
  | missingMemory
  | missingAllocator
  | trap (message : String)
  | limitExceeded (limit : Limit)
  | guestExit (code : I32)
  | poisoned
  | memory (error : MemoryError)
  | allocationFailed (size : ℕ)
  | valueTooLarge (size : ℕ)
  deriving DecidableEq

/-- Whether a failure unwinds the guest call that meets it; a host function answers
    any other with a status. -/
def Error.unwinds : Error → Bool
  | .memory _ | .valueTooLarge _ | .allocationFailed _ => false
  | _ => true

inductive ContextProblem where
  | unknown
  | notRoot
  | notStream
  | notDone
  | hasChildren
  | otherStream (lent : ContextId)
  | wrongStreamKind (recorded attempted : StreamKind)
  deriving DecidableEq

inductive CalloutProblem where
  | notOpen
  | notMadeBy (context : ContextId)
  | noResponseHeader
  | wrongKind (kind : CalloutKind)
  deriving DecidableEq

inductive QueueProblem where
  | notRegisteredBy (root : ContextId)
  deriving DecidableEq

inductive GuestError where
  | guestRejected (callback : Callback) (root : ContextId)
  | duplicateRootId (rootId : Bytes) (root : ContextId)
  | context (id : ContextId) (problem : ContextProblem)
  | contextIdsExhausted
  | unexpectedReturn (callback : Callback) (value : I32)
  | callout (id : CalloutId) (problem : CalloutProblem)
  | queue (id : QueueId) (problem : QueueProblem)
  | runtime (error : Error)
  deriving DecidableEq

end ProxyWasmHost
