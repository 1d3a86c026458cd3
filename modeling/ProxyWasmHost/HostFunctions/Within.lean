/-
  What a guest passes on is within its limits: the names and keys, the maps it serializes and
  the lines it logs; and the operations of the shared services are those of its own VM.
-/
import ProxyWasmHost.Codec.Reserve
import ProxyWasmHost.Guest.CodeRuns
import ProxyWasmHost.HostFunctions.CheckFirst
import ProxyWasmHost.HostFunctions.FdWrite
import ProxyWasmHost.HostFunctions.PropertyPath

namespace ProxyWasmHost

open Prog

set_option synthInstance.maxSize 100000

/-! ## The limits of a map -/

namespace Codec

open LittleEndian

/-- The limits allow a map: the number of its pairs, and the bytes of its encoding. -/
def PairLimits.Allow (limits : PairLimits) (pairs : List Pair) : Prop :=
  (∀ max ∈ limits.pairs, pairs.length ≤ max) ∧
    ∃ bytes, encodePairs pairs = .ok bytes ∧ ∀ max ∈ limits.bytes, bytes.length ≤ max

theorem announced_encoded {pairs : List Pair} (h : Fits pairs) :
    announced (header pairs ++ body pairs) = pairs.length := by
  unfold announced header
  rw [List.append_assoc, List.take_left' (length_toBytes _ _)]
  exact ofBytes_toBytes (u32Max_lt.1 h.1)

/-- **The limits allow what is decoded.** -/
theorem PairLimits.allow_of_decodePairs {limits : PairLimits} {data : Bytes} {pairs : List Pair}
    (hd : data.length ≤ isizeMax) (h : decodePairs data limits = .ok pairs) :
    limits.Allow pairs := by
  cases hrefusal : limits.refusal data with
  | some e =>
    rw [(decodePairsIn_refused hrefusal).2] at h
    cases h
  | none =>
    rw [(decodePairsIn_unlimited hrefusal).2] at h
    rw [PairLimits.refusal, Option.or_eq_none_iff] at hrefusal
    obtain ⟨hbytes, hpairs⟩ := hrefusal
    by_cases hne : pairs = []
    · subst hne
      exact ⟨fun _ _ => Nat.zero_le _, [], encodeVisited_nil rfl, fun _ _ => Nat.zero_le _⟩
    have hencode := encodePairs_of_decodePairs hd h hne
    refine ⟨fun max hmax => ?_, data, hencode, fun max hmax => ?_⟩
    · obtain ⟨rfl, -⟩ | ⟨-, ⟨hfits, -⟩, rfl⟩ := encodePairs_ok_iff.1 hencode
      · exact absurd rfl hne
      · have hlen : countSize ≤ (header pairs ++ body pairs).length := by
          rw [List.length_append, length_header]
          omega
        rw [PairLimits.refusesPairs, declared_of_le hlen, announced_encoded hfits, hmax] at hpairs
        by_contra hlt
        simp [Nat.not_le.1 hlt] at hpairs
    · rw [PairLimits.refusesBytes, hmax] at hbytes
      by_contra hlt
      simp [Nat.not_le.1 hlt] at hbytes

end Codec

/-! ## What is within the limits -/

def Limits.AllowName (limits : Limits) (name : Bytes) : Prop :=
  ∀ max ∈ limits.maxNameBytes, name.length ≤ max

/-- The name or the key that an operation is about. -/
def SharedOp.name : SharedOp → Option Bytes
  | .getSharedData _ key | .setSharedData _ key _ _ => some key
  | .registerSharedQueue _ name | .resolveSharedQueue _ name | .defineMetric _ _ name => some name
  | _ => none

/-- The VM that an operation is made for; a resolution may be about another. -/
def SharedOp.madeFor : SharedOp → Option Bytes
  | .getSharedData vmId _ | .setSharedData vmId _ _ _ | .registerSharedQueue vmId _
  | .defineMetric vmId _ _ => some vmId
  | _ => none

def StreamOp.Within (limits : Limits) : StreamOp → Prop
  | .property path | .setProperty path _ => limits.AllowName (encodePath path)
  | .sendLocalResponse response => limits.pairLimits.Allow response.headers
  | .writeMap _ (.replaceAll pairs) => limits.pairLimits.Allow pairs
  | _ => True

def CalloutOp.Within (limits : Limits) : CalloutOp → Prop
  | .httpCall request =>
    limits.pairLimits.Allow request.headers ∧ limits.pairLimits.Allow request.trailers ∧
      ∀ name ∈ requiredHeaders, ∃ pair ∈ request.headers, pair.1 = name
  | .grpcCall request => limits.pairLimits.Allow request.initialMetadata
  | .grpcStream request => limits.pairLimits.Allow request.initialMetadata
  | _ => True

/-- **What the embedder gets is within the limits** of the guest, and what it is asked of the
    shared services is for the VM of the guest. -/
def Event.Within (limits : Limits) : Event → Prop
  | .logged _ _ message => ∀ max ∈ limits.maxLogBytes, message.length ≤ max
  | .stream _ op => op.Within limits
  | .shared _ _ op _ abi => (∀ name, op.name = some name → limits.AllowName name) ∧
      ∀ vmId, op.madeFor = some vmId → vmId = abi.services.vmId
  | .callout _ _ _ op _ => op.Within limits
  | _ => True

/-- From one state to another the limits and the services stay, and all that happened is within
    the limits. -/
structure KeepsWithin (h : HostState) (t : List Event) (h' : HostState) : Prop where
  limits : h'.limits = h.limits
  services : h'.abi.services = h.abi.services
  events : ∀ e ∈ t, e.Within h.limits

instance : Chain KeepsWithin where
  refl h := ⟨rfl, rfl, by rintro e ⟨⟩⟩
  trans first second := by
    refine ⟨second.limits.trans first.limits, second.services.trans first.services, fun e he => ?_⟩
    rcases List.mem_append.1 he with he | he
    · exact first.events e he
    · exact first.limits ▸ second.events e he

/-- A program that keeps within the limits, from every state. -/
abbrev Within {ε α : Type} (m : Prog HostState Event ε α) : Prop := Along KeepsWithin m

/-- A program that keeps within the limits, from one state. -/
abbrev WithinFrom {ε α : Type} (m : Prog HostState Event ε α) (h : HostState) : Prop :=
  AlongFrom KeepsWithin m h

namespace KeepsWithin

variable {h h' : HostState} {e : Event}

theorem silent (hlimits : h'.limits = h.limits) (hservices : h'.abi.services = h.abi.services) :
    KeepsWithin h [] h' :=
  ⟨hlimits, hservices, by rintro e ⟨⟩⟩

theorem single (hlimits : h'.limits = h.limits) (hservices : h'.abi.services = h.abi.services)
    (he : e.Within h.limits) : KeepsWithin h [e] h' := by
  refine ⟨hlimits, hservices, fun e' he' => ?_⟩
  rw [List.mem_singleton] at he'
  exact he' ▸ he

end KeepsWithin

/-! ## The steps of a body -/

section Steps

variable {ε α : Type} {env : Env} {h : HostState}

theorem finds_checked {access : Except MemoryError α} :
    Finds (checked access) (fun a => access = .ok a) h := by
  cases access with
  | ok a => exact Finds.pure rfl
  | error e => exact Finds.throw

/-- A range holds no more than its length says. -/
theorem finds_readSlice {memory : Bytes} {range : GuestSlice} :
    Finds (readSlice memory range) (fun bytes => bytes.length ≤ isizeMax) h := by
  refine finds_checked.mono fun bytes hbytes => ?_
  obtain ⟨-, rfl⟩ := Wasi.read_eq_ok.1 hbytes
  have hlen := range.len.toNat_lt
  rw [bytesAt, List.length_take, isizeMax]
  omega

theorem finds_guestPairs {bytes : Bytes} :
    Finds (guestPairs bytes)
      (fun pairs => pairs = Codec.decodePairs bytes h.limits.pairLimits) h :=
  .bind_read (.pure rfl)

/-- A map that is decoded is within the limits. -/
theorem finds_decoded {bytes : Bytes} {failure : Status} (hbytes : bytes.length ≤ isizeMax) :
    Finds (decoded (Codec.decodePairs bytes h.limits.pairLimits) failure)
      h.limits.pairLimits.Allow h := by
  unfold decoded
  cases hdecode : Codec.decodePairs bytes h.limits.pairLimits with
  | ok pairs => exact Finds.pure (Codec.PairLimits.allow_of_decodePairs hbytes hdecode)
  | error e => exact Finds.throw

theorem finds_metadata {bytes : Bytes} (hbytes : bytes.length ≤ isizeMax) :
    Finds (metadata bytes) h.limits.pairLimits.Allow h :=
  finds_guestPairs.bind fun _ hpairs => hpairs ▸ finds_decoded hbytes

theorem finds_withinNameBytes {name : Bytes} {refusal : Status} :
    Finds (withinNameBytes name refusal) (fun _ => h.limits.AllowName name) h :=
  .bind_read .require

theorem finds_withinNames {name : Bytes} {held : SharedName} :
    Finds (withinNames name held) (fun _ => h.limits.AllowName name) h :=
  finds_withinNameBytes.bind fun _ hname => .mono .quiet fun _ _ => hname

instance {memory : Bytes} :
    Within (Prog.modify (·.setMemory memory) : Prog HostState Event ε Unit) :=
  .modify fun _ => .silent rfl rfl

instance : Within (Prog.modify HostState.poison : Prog HostState Event ε Unit) :=
  .modify fun _ => .silent rfl rfl

instance {buffer : BufferType} :
    Within (Prog.modify (·.mapAbi fun abi => (abi.takeAnnounced buffer).2) :
      Prog HostState Event ε Unit) := by
  refine .modify fun h => ?_
  obtain ⟨announced, heq⟩ := h.abi.takeAnnounced_eq buffer
  exact .silent rfl (congrArg (·.services) heq)

instance {write : Bytes → Except MemoryError Bytes} : Within (hostWrite write) := by
  unfold hostWrite; infer_instance

instance {write : Bytes → Except MemoryError Bytes} : Within (writeMemory write) := by
  unfold writeMemory; infer_instance

instance {ptr : GuestPtr} {value : UInt32} : Within (writeU32 ptr value) := by
  unfold writeU32; infer_instance

instance {ptr : GuestPtr} {value : UInt64} : Within (writeU64 ptr value) := by
  unfold writeU64; infer_instance

instance {write : Bytes → Except MemoryError Bytes} : Within (Wasi.write write) := by
  unfold Wasi.write Wasi.split Wasi.fault; infer_instance

end Steps

/-! ### The allocator -/

section Allocator

variable {run : I32 → Host I32} [hrun : ∀ size, Within (run size)]

instance {size : UInt32} : Within (allocate run size) := by
  unfold allocate
  refine .andThen fun _ => .andThen fun _ => .andThen fun _ => .andThen fun _ => ?_
  refine .andThen fun _ => .andThen fun answer => ?_
  cases answer <;> infer_instance

instance {bytes : Bytes} : Within (writeToGuest run bytes) := by
  unfold writeToGuest
  dsimp only
  infer_instance

instance {bytes : Bytes} {pointer : Option GuestPtr} : Within (writeData run bytes pointer) := by
  cases pointer <;> unfold writeData <;> infer_instance

instance {bytes : Bytes} {written : Option UInt32} : Within (writtenSize bytes written) := by
  cases written <;> unfold writtenSize <;> infer_instance

instance {bytes : Bytes} {returnData returnSize : Option GuestPtr} :
    Within (writeOptionalReturn run bytes returnData returnSize) := by
  unfold writeOptionalReturn
  cases returnSize <;> infer_instance

instance {bytes : Bytes} {returnData returnSize : GuestPtr} :
    Within (writeReturn run bytes returnData returnSize) := by
  unfold writeReturn; infer_instance

end Allocator

/-- A guest whose allocator keeps within the limits. -/
class AllocatorWithin (env : Env) : Prop where
  within : ∀ size, Within (env.allocator size)

variable {α : Type} {env : Env} {h : HostState}

instance [henv : AllocatorWithin env] {bytes : Bytes} {returnData returnSize : GuestPtr} :
    Within (env.writeReturn bytes returnData returnSize) := by
  have := henv.within
  unfold Env.writeReturn
  infer_instance

/-! ## The context and the stream state -/

section Stream

instance : Within proxyDone := by
  refine ⟨fun h => ?_⟩
  unfold proxyDone
  refine AlongFrom.bind_quiet fun contexts => .bind_quiet fun effective => .bind_quiet fun _ => ?_
  exact KeepsWithin.single rfl rfl trivial

instance {a : I32} : Within (proxySetEffectiveContext a) := by
  refine ⟨fun h => ?_⟩
  unfold proxySetEffectiveContext
  refine AlongFrom.bind_quiet fun id => .bind_quiet fun contexts => .bind_quiet fun current => ?_
  refine .bind_quiet fun _ => .bind_quiet fun _ => .bind_quiet fun _ => ?_
  exact KeepsWithin.silent rfl rfl

instance {a : I32} : Within (proxySetTickPeriodMilliseconds a) := by
  refine ⟨fun h => ?_⟩
  unfold proxySetTickPeriodMilliseconds
  refine AlongFrom.bind_quiet fun effective => .bind_quiet fun set => .bind_quiet fun _ => ?_
  refine KeepsWithin.silent rfl ?_
  unfold HostState.mapAbi
  dsimp only
  split <;> rfl

/-- An operation of the stream state that no limit is about. -/
class StreamOp.Unlimited (op : StreamOp) : Prop where
  within : ∀ limits, op.Within limits

instance {access : Access} {map : MapType} : StreamOp.Unlimited (.headerMap access map) :=
  ⟨fun _ => trivial⟩

instance {access : Access} {buffer : BufferType} : StreamOp.Unlimited (.buffer access buffer) :=
  ⟨fun _ => trivial⟩

instance {streamType : StreamType} : StreamOp.Unlimited (.continueStream streamType) :=
  ⟨fun _ => trivial⟩

instance {streamType : StreamType} : StreamOp.Unlimited (.closeStream streamType) :=
  ⟨fun _ => trivial⟩

instance {request : ForeignCall} : StreamOp.Unlimited (.callForeignFunction request) :=
  ⟨fun _ => trivial⟩

theorem askStream_within {call : Invocation} {op : StreamOp} {answer : Answer α}
    (hop : op.Within h.limits) : WithinFrom (askStream call op answer) h := by
  unfold askStream
  exact .bind (R := KeepsWithin) (.single rfl rfl hop) fun _ _ _ _ => .of_along

instance {call : Invocation} {op : StreamOp} [hop : op.Unlimited] {answer : Answer α} :
    Within (askStream call op answer) :=
  ⟨fun h => askStream_within (hop.within h.limits)⟩

instance {mapType : MapType} {access : Access} : Within (headerMap env mapType access) := by
  unfold headerMap
  split <;> infer_instance

instance {buffer : BufferType} : Within (readBuffer env buffer) := by
  unfold readBuffer
  split <;> infer_instance

instance {buffer : BufferType} : Within (writeBuffer env buffer) := by
  unfold writeBuffer
  split <;> infer_instance

/-- The limit of a raw path is one of what is decoded from it. -/
theorem Limits.AllowName.decodePath {limits : Limits} {raw : Bytes} (h : limits.AllowName raw) :
    limits.AllowName (encodePath (ProxyWasmHost.decodePath raw)) := by
  intro max hmax
  rw [encodePath_decodePath]
  refine le_trans ?_ (h max hmax)
  unfold strip
  split
  · rw [List.length_dropLast]
    omega
  · exact le_rfl

theorem property_within {path : List Bytes} (hpath : h.limits.AllowName (encodePath path)) :
    WithinFrom (property env path) h := by
  unfold property
  split
  · exact .of_along
  · exact .bind_quiet fun call => .bind (askStream_within hpath) fun _ _ _ _ => .of_along

theorem setProperty_within {path : List Bytes} {value : Bytes}
    (hpath : h.limits.AllowName (encodePath path)) :
    WithinFrom (setProperty env path value) h := by
  unfold setProperty
  split
  · exact .of_along
  · exact .bind_quiet fun call => .bind (askStream_within hpath) fun _ _ _ _ => .of_along

instance {a b c d e : I32} : Within (proxySetBufferBytes env a b c d e) := by
  unfold proxySetBufferBytes; infer_instance

instance {a b c : I32} : Within (proxyGetBufferStatus env a b c) := by
  unfold proxyGetBufferStatus; infer_instance

instance {a b : I32} : Within (proxyGetHeaderMapSize env a b) := by
  unfold proxyGetHeaderMapSize; infer_instance

theorem changed_within {mapType : MapType} {map : HeaderMap} {write : Multimap.Write Bytes Bytes}
    (hwrite : (StreamOp.writeMap mapType write).Within h.limits) :
    WithinFrom (changed mapType map write) h :=
  .bind_quiet fun _ => .bind (askStream_within hwrite) fun _ _ _ _ => .of_along

/-- The pairs that replace those of a map are decoded within the limits. -/
instance {a b c : I32} : Within (proxySetHeaderMapPairs env a b c) := by
  refine ⟨fun h => ?_⟩
  unfold proxySetHeaderMapPairs
  refine AlongFrom.bind_quiet fun mapType => .bind_quiet fun range => .bind_quiet fun memory => ?_
  refine .bind_finds finds_readSlice fun bytes hbytes => ?_
  refine .bind_finds finds_guestPairs fun pairs hpairs => ?_
  refine .bind_finds (hpairs ▸ finds_decoded hbytes) fun pairs hallow => ?_
  refine .bind .of_along fun map _ h' hkept => changed_within ?_
  show h'.limits.pairLimits.Allow pairs
  rw [hkept.limits]
  exact hallow

/-- No limit is about the key and the value of one pair. -/
instance {mapType : MapType} {map : HeaderMap} {key value : Bytes} :
    Within (changed mapType map (.add key value)) := ⟨fun _ => changed_within trivial⟩

instance {mapType : MapType} {map : HeaderMap} {key value : Bytes} :
    Within (changed mapType map (.set key value)) := ⟨fun _ => changed_within trivial⟩

instance {mapType : MapType} {map : HeaderMap} {key : Bytes} :
    Within (changed mapType map (.remove key)) := ⟨fun _ => changed_within trivial⟩

instance {change : Bytes → Bytes → Multimap.Write Bytes Bytes} {a b c d e : I32}
    [∀ mapType map key value, Within (changed mapType map (change key value))] :
    Within (changeHeaderMapValue env change a b c d e) := by
  unfold changeHeaderMapValue; infer_instance

instance {a b c d e : I32} : Within (proxyAddHeaderMapValue env a b c d e) := by
  unfold proxyAddHeaderMapValue; infer_instance

instance {a b c d e : I32} : Within (proxyReplaceHeaderMapValue env a b c d e) := by
  unfold proxyReplaceHeaderMapValue; infer_instance

instance {a b c : I32} : Within (proxyRemoveHeaderMapValue env a b c) := by
  unfold proxyRemoveHeaderMapValue; infer_instance

instance {a : I32} : Within (proxyContinueStream env a) := by
  unfold proxyContinueStream; infer_instance

instance {a : I32} : Within (proxyCloseStream env a) := by
  unfold proxyCloseStream; infer_instance

variable [henv : AllocatorWithin env]

instance {a b c d e : I32} : Within (proxyGetBufferBytes env a b c d e) := by
  unfold proxyGetBufferBytes; infer_instance

instance {a b c : I32} : Within (proxyGetHeaderMapPairs env a b c) := by
  unfold proxyGetHeaderMapPairs; infer_instance

instance {a b c d e : I32} : Within (proxyGetHeaderMapValue env a b c d e) := by
  unfold proxyGetHeaderMapValue; infer_instance

instance {a b c : I32} : Within (proxyGetStatus env a b c) := by
  unfold proxyGetStatus; infer_instance

instance {a b c d : I32} : Within (proxyGetProperty env a b c d) := by
  refine ⟨fun h => ?_⟩
  unfold proxyGetProperty
  refine AlongFrom.bind_quiet fun path => .bind_quiet fun memory => .bind_quiet fun _ => ?_
  refine .bind_quiet fun _ => .bind_quiet fun raw => ?_
  refine .bind_finds finds_withinNameBytes fun _ hname => ?_
  exact .bind (property_within hname.decodePath) fun _ _ _ _ => .of_along

instance {a b c d : I32} : Within (proxySetProperty env a b c d) := by
  refine ⟨fun h => ?_⟩
  unfold proxySetProperty
  refine AlongFrom.bind_quiet fun path => .bind_quiet fun value => .bind_quiet fun memory => ?_
  refine .bind_quiet fun raw => .bind_finds finds_withinNameBytes fun _ hname => ?_
  exact .bind_quiet fun value => setProperty_within hname.decodePath

instance {a b c d e f g i : I32} : Within (proxySendLocalResponse env a b c d e f g i) := by
  refine ⟨fun h => ?_⟩
  unfold proxySendLocalResponse
  refine AlongFrom.bind_quiet fun details => .bind_quiet fun body => .bind_quiet fun headers => ?_
  refine .bind_quiet fun memory => .bind_quiet fun details => .bind_quiet fun body => ?_
  refine .bind_finds finds_readSlice fun headers hheaders => ?_
  refine .bind_finds finds_guestPairs fun pairs hpairs => ?_
  refine .bind_finds (hpairs ▸ finds_decoded hheaders) fun headers hallow => ?_
  refine .bind_quiet fun call => ?_
  exact .bind (askStream_within hallow) fun _ _ _ _ => .of_along

instance {write : Bytes → Body Unit} [hwrite : ∀ bytes, Within (write bytes)]
    {answer : Except Failure Bytes} : Within (storeResults write answer) := by
  unfold storeResults
  cases answer <;> infer_instance

instance {a b c d e f : I32} : Within (proxyCallForeignFunction env a b c d e f) := by
  have := henv.within
  unfold proxyCallForeignFunction
  dsimp only
  infer_instance

end Stream

/-! ## The shared services -/

section Shared

instance : Within settle := by
  unfold settle
  refine .act fun h => .single rfl ?_ trivial
  unfold HostState.mapAbi AbiState.settle
  dsimp only
  split <;> rfl

instance {absent : Status} : Within (withShared absent) := by
  unfold withShared; infer_instance

/-- A record of an answer that leaves the services alone. -/
class KeepsServices (record : ContextId → α → AbiState → AbiState) : Prop where
  services : ∀ c a abi, (record c a abi).services = abi.services

instance : KeepsServices (recordNothing : ContextId → α → AbiState → AbiState) :=
  ⟨fun _ _ _ => rfl⟩

instance {name : Bytes} : KeepsServices (recordRegistered name) := by
  refine ⟨fun c queue abi => ?_⟩
  unfold recordRegistered
  dsimp only
  split
  · unfold AbiState.registerQueue
    split <;> rfl
  · rfl

instance {vmId name : Bytes} : KeepsServices (recordResolved vmId name) := ⟨fun _ _ _ => rfl⟩

instance {kind : MetricType} {name : Bytes} : KeepsServices (recordDefined kind name) :=
  ⟨fun _ _ _ => rfl⟩

theorem services_recorded {record : ContextId → α → AbiState → AbiState}
    [hrecord : KeepsServices record] {c : ContextId} {answer : Answer (Except Status α)}
    {abi : AbiState} : (recorded (record c) answer abi).services = abi.services := by
  unfold recorded
  split
  · exact hrecord.services _ _ _
  · rfl

/-- **An operation of the shared services**, whose name the limits allow. -/
theorem askWithin_within {limits : Body Unit} {op : SharedOp} {reply : α → SharedReply}
    {record : ContextId → α → AbiState → AbiState} [KeepsServices record]
    {answer : Invocation → Answer (Except Status α)}
    (hlimits : ∀ h' : HostState, h'.limits = h.limits → Finds limits
      (fun _ => ∀ name, op.name = some name → h.limits.AllowName name) h')
    (hvm : ∀ vmId, op.madeFor = some vmId → vmId = h.abi.services.vmId) :
    WithinFrom (askWithin limits op reply record answer) h := by
  unfold askWithin
  refine AlongFrom.bind (.of_along) fun asked t h' hkept => ?_
  refine .bind_finds (hlimits h' hkept.limits) fun _ hname => ?_
  refine .bind ?_ fun _ _ _ _ => .of_along
  unfold askShared
  refine .bind (R := KeepsWithin) (.single rfl services_recorded ⟨?_, ?_⟩) fun _ _ _ _ => .of_along
  · rw [hkept.limits]
    exact hname
  · show ∀ vmId, op.madeFor = some vmId → vmId = h'.abi.services.vmId
    rw [hkept.services]
    exact hvm

/-- An operation on an identifier names nothing. -/
theorem askHeld_within {holds : AbiState → Bool} {op : SharedOp} {reply : α → SharedReply}
    {answer : Invocation → Answer (Except Status α)} (hname : op.name = none)
    (hvm : op.madeFor = none) : Within (askHeld holds op reply answer) := by
  refine ⟨fun h => ?_⟩
  unfold askHeld
  refine AlongFrom.bind .of_along fun _ _ h' _ => .bind_quiet fun held => .bind_quiet fun _ => ?_
  refine askWithin_within (fun _ _ => Finds.pure ?_) ?_
  · rw [hname]
    rintro name ⟨⟩
  · rw [hvm]
    rintro vmId ⟨⟩

/-- The limit of a name is one of the operation that is about it. -/
theorem finds_name {limits : Body Unit} {name : Bytes} {op : SharedOp} (hop : op.name = some name)
    (hfinds : ∀ h' : HostState, Finds limits (fun _ => h'.limits.AllowName name) h')
    (h' : HostState) (hlimits : h'.limits = h.limits) : Finds limits
      (fun _ => ∀ name, op.name = some name → h.limits.AllowName name) h' := by
  refine (hfinds h').mono fun _ hname name' hname' => ?_
  cases hop.symm.trans hname'
  exact hlimits ▸ hname

instance {a b c d e : I32} : Within (proxySetSharedData env a b c d e) := by
  refine ⟨fun h => ?_⟩
  unfold proxySetSharedData
  refine AlongFrom.bind_quiet fun key => .bind_quiet fun value => .bind_quiet fun memory => ?_
  refine .bind_quiet fun key => .bind_quiet fun value => .bind_read ?_
  refine askWithin_within (finds_name rfl fun h' => finds_withinNameBytes) ?_
  rintro vmId ⟨⟩
  rfl

instance [AllocatorWithin env] {a b c d e : I32} : Within (proxyGetSharedData env a b c d e) := by
  refine ⟨fun h => ?_⟩
  unfold proxyGetSharedData
  refine AlongFrom.bind_quiet fun key => .bind_quiet fun memory => .bind_quiet fun _ => ?_
  refine .bind_quiet fun _ => .bind_quiet fun _ => .bind_quiet fun key => .bind_read ?_
  refine .bind (askWithin_within (finds_name rfl fun h' => finds_withinNameBytes) ?_)
    fun _ _ _ _ => .of_along
  rintro vmId ⟨⟩
  rfl

instance {a b c : I32} : Within (proxyRegisterSharedQueue env a b c) := by
  refine ⟨fun h => ?_⟩
  unfold proxyRegisterSharedQueue
  refine AlongFrom.bind_quiet fun name => .bind_quiet fun memory => .bind_quiet fun _ => ?_
  refine .bind_quiet fun name => .bind_read ?_
  refine .bind (askWithin_within (finds_name rfl fun h' => finds_withinNames) ?_)
    fun _ _ _ _ => .of_along
  rintro vmId ⟨⟩
  rfl

instance {a b c d e : I32} : Within (proxyResolveSharedQueue env a b c d e) := by
  refine ⟨fun h => ?_⟩
  unfold proxyResolveSharedQueue
  refine AlongFrom.bind_quiet fun vmId => .bind_quiet fun name => .bind_quiet fun memory => ?_
  refine .bind_quiet fun _ => .bind_quiet fun vmId => .bind_quiet fun name => .bind_read ?_
  refine .bind (askWithin_within (finds_name rfl fun h' => finds_withinNames) ?_)
    fun _ _ _ _ => .of_along
  rintro vmId ⟨⟩

instance {a b c d : I32} : Within (proxyDefineMetric env a b c d) := by
  refine ⟨fun h => ?_⟩
  unfold proxyDefineMetric
  refine AlongFrom.bind_quiet fun kind => .bind_quiet fun name => .bind_quiet fun memory => ?_
  refine .bind_quiet fun _ => .bind_quiet fun name => .bind_read ?_
  refine .bind (askWithin_within (finds_name rfl fun h' => finds_withinNames) ?_)
    fun _ _ _ _ => .of_along
  rintro vmId ⟨⟩
  rfl

instance {holds : AbiState → Bool} {queue : QueueId} {value : Bytes} {reply : α → SharedReply}
    {answer : Invocation → Answer (Except Status α)} :
    Within (askHeld holds (.enqueueSharedQueue queue value) reply answer) :=
  askHeld_within rfl rfl

instance {holds : AbiState → Bool} {queue : QueueId} {reply : α → SharedReply}
    {answer : Invocation → Answer (Except Status α)} :
    Within (askHeld holds (.dequeueSharedQueue queue) reply answer) :=
  askHeld_within rfl rfl

instance {holds : AbiState → Bool} {metric : MetricId} {value : UInt64} {reply : α → SharedReply}
    {answer : Invocation → Answer (Except Status α)} :
    Within (askHeld holds (.recordMetric metric value) reply answer) :=
  askHeld_within rfl rfl

instance {holds : AbiState → Bool} {metric : MetricId} {delta : Int64} {reply : α → SharedReply}
    {answer : Invocation → Answer (Except Status α)} :
    Within (askHeld holds (.incrementMetric metric delta) reply answer) :=
  askHeld_within rfl rfl

instance {holds : AbiState → Bool} {metric : MetricId} {reply : α → SharedReply}
    {answer : Invocation → Answer (Except Status α)} :
    Within (askHeld holds (.getMetric metric) reply answer) :=
  askHeld_within rfl rfl

instance {a b c : I32} : Within (proxyEnqueueSharedQueue env a b c) := by
  unfold proxyEnqueueSharedQueue; infer_instance

instance [AllocatorWithin env] {a b c : I32} : Within (proxyDequeueSharedQueue env a b c) := by
  unfold proxyDequeueSharedQueue; infer_instance

instance {a : I32} {value : I64} : Within (proxyRecordMetric env a value) := by
  unfold proxyRecordMetric; infer_instance

instance {a : I32} {delta : I64} : Within (proxyIncrementMetric env a delta) := by
  unfold proxyIncrementMetric; infer_instance

instance {a b : I32} : Within (proxyGetMetric env a b) := by
  unfold proxyGetMetric; infer_instance

end Shared

/-! ## The callouts -/

section Callouts

variable {op : CalloutOp} {id : CalloutId}

theorem askCallout_within {call : Invocation} {record : Bool → CalloutTable → CalloutTable}
    {answer : Answer (Except Status Unit)} (hop : op.Within h.limits) :
    WithinFrom (askCallout call id op record answer) h := by
  unfold askCallout
  exact .bind (R := KeepsWithin) (.single rfl rfl hop) fun _ _ _ _ => .of_along

instance {call : Invocation} {record : Bool → CalloutTable → CalloutTable}
    {answer : Answer (Except Status Unit)} {message : Bytes} {endOfStream : Bool} :
    Within (askCallout call id (.grpcSend message endOfStream) record answer) :=
  ⟨fun _ => askCallout_within trivial⟩

instance {call : Invocation} {record : Bool → CalloutTable → CalloutTable}
    {answer : Answer (Except Status Unit)} :
    Within (askCallout call id .grpcCancel record answer) :=
  ⟨fun _ => askCallout_within trivial⟩

instance {call : Invocation} {record : Bool → CalloutTable → CalloutTable}
    {answer : Answer (Except Status Unit)} :
    Within (askCallout call id .grpcClose record answer) :=
  ⟨fun _ => askCallout_within trivial⟩

theorem openCallout_within {kind : CalloutKind}
    {ask : Invocation → CalloutId → Answer (Except Status Unit)} (hop : op.Within h.limits) :
    WithinFrom (openCallout kind op ask) h := by
  unfold openCallout
  refine AlongFrom.bind_quiet fun caller => .bind_quiet fun _ => .bind_quiet fun root => ?_
  refine .bind_quiet fun _ => .bind_quiet fun _ => .bind_quiet fun maximum => ?_
  refine .bind_quiet fun _ => .bind_quiet fun _ => .bind_quiet fun call => ?_
  refine .bind_quiet fun _ => .bind_quiet fun reserved => ?_
  exact .bind (askCallout_within hop) fun _ _ _ _ => .of_along

instance {a b c d e f g i j k : I32} : Within (proxyHttpCall env a b c d e f g i j k) := by
  refine ⟨fun h => ?_⟩
  unfold proxyHttpCall
  refine AlongFrom.bind_quiet fun upstream => .bind_quiet fun headers => .bind_quiet fun body => ?_
  refine .bind_quiet fun trailers => .bind_quiet fun memory => .bind_quiet fun _ => ?_
  refine .bind_quiet fun upstream => .bind_finds finds_readSlice fun headers hheaders => ?_
  refine .bind_finds finds_guestPairs fun pairs hpairs => ?_
  refine .bind_finds (hpairs ▸ finds_decoded hheaders) fun headers hallow => ?_
  refine .bind_quiet fun body => .bind_finds finds_readSlice fun trailers htrailers => ?_
  refine .bind_finds finds_guestPairs fun pairs hpairs => ?_
  refine .bind_finds (hpairs ▸ finds_decoded htrailers) fun trailers hallow' => ?_
  refine .bind_finds Finds.require fun _ hrequired => ?_
  exact .bind (openCallout_within ⟨hallow, hallow', hrequired⟩) fun _ _ _ _ => .of_along

instance {a b c d e f g i j k l m : I32} :
    Within (proxyGrpcCall env a b c d e f g i j k l m) := by
  refine ⟨fun h => ?_⟩
  unfold proxyGrpcCall
  refine AlongFrom.bind_quiet fun upstream => .bind_quiet fun service => .bind_quiet fun method => ?_
  refine .bind_quiet fun initial => .bind_quiet fun message => .bind_quiet fun memory => ?_
  refine .bind_quiet fun _ => .bind_quiet fun upstream => .bind_quiet fun service => ?_
  refine .bind_quiet fun method => .bind_finds finds_readSlice fun initial hinitial => ?_
  refine .bind_finds (finds_metadata hinitial) fun initial hallow => .bind_quiet fun message => ?_
  exact .bind (openCallout_within hallow) fun _ _ _ _ => .of_along

instance {a b c d e f g i j : I32} : Within (proxyGrpcStream env a b c d e f g i j) := by
  refine ⟨fun h => ?_⟩
  unfold proxyGrpcStream
  refine AlongFrom.bind_quiet fun upstream => .bind_quiet fun service => .bind_quiet fun method => ?_
  refine .bind_quiet fun initial => .bind_quiet fun memory => .bind_quiet fun _ => ?_
  refine .bind_quiet fun upstream => .bind_quiet fun service => .bind_quiet fun method => ?_
  refine .bind_finds finds_readSlice fun initial hinitial => ?_
  refine .bind_finds (finds_metadata hinitial) fun initial hallow => ?_
  exact .bind (openCallout_within hallow) fun _ _ _ _ => .of_along

instance {a b c d : I32} : Within (proxyGrpcSend env a b c d) := by
  unfold proxyGrpcSend
  refine .andThen fun message => .andThen fun memory => .andThen fun bytes => ?_
  refine .andThen fun found => ?_
  cases found <;> dsimp only <;> infer_instance

instance : Within (endCallout env id) := by
  unfold endCallout
  refine .andThen fun caller => ?_
  cases caller <;> infer_instance

instance {a : I32} : Within (proxyGrpcCancel env a) := by
  unfold proxyGrpcCancel
  refine .andThen fun memory => .andThen fun found => ?_
  cases found <;> infer_instance

instance {a : I32} : Within (proxyGrpcClose env a) := by
  unfold proxyGrpcClose
  refine .andThen fun memory => .andThen fun found => ?_
  rcases found with ⟨callout, entry⟩ | _
  · dsimp only
    cases entry.kind <;> infer_instance
  · infer_instance

end Callouts

/-! ## The log and WASI -/

section Log

theorem writeLog_within {ε : Type} {level : LogLevel} {message : Bytes}
    (hmessage : ∀ max ∈ h.limits.maxLogBytes, message.length ≤ max) :
    WithinFrom (writeLog env level message : Prog HostState Event ε Unit) h := by
  unfold writeLog
  refine AlongFrom.bind_read ?_
  exact .bind (R := KeepsWithin) (.single rfl rfl hmessage) fun _ _ _ _ => .of_along

instance {a b c : I32} : Within (proxyLog env a b c) := by
  refine ⟨fun h => ?_⟩
  unfold proxyLog
  refine AlongFrom.bind_quiet fun level => .bind_quiet fun range => .bind_quiet fun memory => ?_
  refine .bind_quiet fun message => .bind_read (writeLog_within fun max hmax => ?_)
  rw [Option.mem_def.1 hmax]
  exact List.length_take_le max message

instance {a : I32} : Within (proxyGetLogLevel a) := by unfold proxyGetLogLevel; infer_instance

instance {a : I32} : Within (proxyGetCurrentTimeNanoseconds env a) := by
  unfold proxyGetCurrentTimeNanoseconds; infer_instance

namespace Wasi

/-- What is gathered has room in the budget. -/
theorem finds_gather {memory : Bytes} {budget : ℕ} : ∀ (entries : List GuestSlice)
    (message : Bytes), message.length ≤ budget →
    Finds (gather memory budget entries message) (fun message => message.length ≤ budget) h
  | [], message, hroom => .pure hroom
  | entry :: entries, message, hroom => by
    unfold gather
    dsimp only
    split
    · exact .pure hroom
    · refine finds_fault.bind fun bytes _ => finds_gather entries _ ?_
      rw [List.length_append, List.length_take]
      omega

instance {a b c d : I32} : Within (Wasi.fdWrite env a b c d) := by
  refine ⟨fun h => ?_⟩
  unfold Wasi.fdWrite
  refine AlongFrom.bind_quiet fun level => .bind_quiet fun memory => .bind_quiet fun _ => ?_
  refine .bind_quiet fun _ => .bind_quiet fun _ => .bind_quiet fun table => ?_
  refine .bind_quiet fun table => .bind_quiet fun entries => .bind_quiet fun _ => .bind_read ?_
  refine .bind_finds (finds_gather entries [] (Nat.zero_le _)) fun message hmessage => ?_
  have hlog : ∀ max ∈ h.limits.maxLogBytes,
      (if message.getLast? = some 10 then message.dropLast else message).length ≤ max := by
    intro max hmax
    rw [Option.mem_def.1 hmax] at hmessage
    split
    · rw [List.length_dropLast]
      exact le_trans (Nat.sub_le _ _) hmessage
    · exact hmessage
  dsimp only
  split
  · exact .bind (writeLog_within hlog) fun _ _ _ _ => .of_along
  · exact .of_along

instance {a b : I32} : Within (Wasi.clockTimeGet env a b) := by
  unfold Wasi.clockTimeGet; infer_instance

instance {a b : I32} : Within (Wasi.randomGet env a b) := by
  unfold Wasi.randomGet; infer_instance

instance {a b : I32} : Within (Wasi.environSizesGet a b) := by
  unfold Wasi.environSizesGet; infer_instance

instance {start : GuestPtr} {block : Bytes} : Within (Wasi.writeBlock start block) := by
  unfold Wasi.writeBlock; infer_instance

instance {a b : I32} : Within (Wasi.environGet a b) := by
  unfold Wasi.environGet; infer_instance

instance {a b : I32} : Within (Wasi.argsSizesGet a b) := by
  unfold Wasi.argsSizesGet; infer_instance

end Wasi

end Log

/-! ## The table -/

section Table

instance {body : Body Unit} [Within body] : Within (complete body) := by
  unfold complete
  refine .andThen fun answer => ?_
  rcases answer with (status | ⟨error, unwinds⟩) | ok <;> infer_instance

instance {body : Wasi Unit} [Within body] : Within (errno body) := by
  unfold errno
  refine .andThen fun answer => ?_
  cases answer <;> infer_instance

/-- **A call of any host function keeps within the limits.** -/
theorem hostCall_within [AllocatorWithin env] (function : HostCall) : Within (function.run env) := by
  cases function <;> unfold HostCall.run <;> infer_instance

/-- **Guest code keeps within the limits**, whatever it calls. -/
theorem Code.exec_within (code : Code) : Within code.exec := by
  induction code with
  | ret memory value => unfold exec; infer_instance
  | unwind fault => unfold exec; infer_instance
  | call memory function world allocator next ihAllocator ihNext =>
    have henv : AllocatorWithin ⟨world, fun size => (allocator size).exec⟩ := ⟨ihAllocator⟩
    have hcall : Within (function.run ⟨world, fun size => (allocator size).exec⟩) :=
      hostCall_within function
    have hcalled : Within (Prog.emit fun h => Event.called h.abi : Host Unit) :=
      .emit fun _ => .single rfl rfl trivial
    unfold exec
    infer_instance

instance {code : Code} : Within (callTyped code) := by
  have := code.exec_within
  unfold callTyped
  refine .andThen fun _ => .andThen fun _ => .andThen fun answer => ?_
  cases answer <;> infer_instance

end Table

end ProxyWasmHost
