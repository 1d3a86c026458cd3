/-
  Every host function of the ABI is honest: it answers OK only when its body returns.
-/
import ProxyWasmHost.HostFunctions.Answers

namespace ProxyWasmHost

open Prog

set_option synthInstance.maxSize 100000

variable {α : Type} {env : Env}

/-! ## The shared steps -/

section Steps

instance : Honest split := .mapErr

instance {ptr : GuestPtr} {len : UInt32} : Honest (slice ptr len) := .checked

instance {memory : Bytes} {range : GuestSlice} : Honest (readSlice memory range) := .checked

instance {memory : Bytes} {ptr : GuestPtr} : Honest (checkWord memory ptr) := by
  unfold checkWord; infer_instance

instance {bytes : Bytes} : Honest (guestPairs bytes) := by unfold guestPairs; infer_instance

instance {pairs : Except Codec.DecodeError (List Pair)} {failure : Status} [Refusal failure] :
    Honest (decoded pairs failure) := .ofExcept

instance {bytes : Bytes} : Honest (metadata bytes) := by unfold metadata; infer_instance

instance {absent : Status} [Refusal absent] : Honest (context absent) := by
  unfold context; infer_instance

instance {absent : Status} [Refusal absent] : Honest (withStream absent) := by
  unfold withStream; infer_instance

instance {call : Invocation} {op : StreamOp} {answer : Answer α} :
    Honest (askStream call op answer) := by
  unfold askStream; infer_instance

instance {mapType : MapType} {map : HeaderMap} {write : Multimap.Write Bytes Bytes} :
    Honest (changed mapType map write) := by
  have hanswer : ∀ answer : Except NotAllowed Unit,
      Honest (Prog.ofExcept (answer.mapError fun _ => .status .badArgument) : Body Unit) :=
    fun _ => .ofExcept
  unfold changed; infer_instance

instance {write : Bytes → Except MemoryError Bytes} : Honest (writeMemory write) := by
  unfold writeMemory; infer_instance

instance {ptr : GuestPtr} {value : UInt32} : Honest (writeU32 ptr value) := by
  unfold writeU32; infer_instance

instance {ptr : GuestPtr} {value : UInt64} : Honest (writeU64 ptr value) := by
  unfold writeU64; infer_instance

instance {bytes : Bytes} {returnData returnSize : GuestPtr} :
    Honest (env.writeReturn bytes returnData returnSize) := .mapErr

instance {name : Bytes} {refusal : Status} [Refusal refusal] :
    Honest (withinNameBytes name refusal) := by
  unfold withinNameBytes; infer_instance

end Steps

/-! ## The context, the tick and the stream -/

section Stream

instance : Honest proxyDone := by unfold proxyDone; infer_instance

instance {a : I32} : Honest (proxySetEffectiveContext a) := by
  unfold proxySetEffectiveContext; infer_instance

instance {a : I32} : Honest (proxySetTickPeriodMilliseconds a) := by
  unfold proxySetTickPeriodMilliseconds; infer_instance

instance {a : I32} : Honest (proxyContinueStream env a) := by
  unfold proxyContinueStream; infer_instance

instance {a : I32} : Honest (proxyCloseStream env a) := by
  unfold proxyCloseStream; infer_instance

instance {which : DeliveredMap} {access : Access} : Honest (delivered which access) := by
  unfold delivered
  cases access <;> infer_instance

instance {mapType : MapType} {access : Access} : Honest (headerMap env mapType access) := by
  unfold headerMap
  split <;> infer_instance

instance {a b : I32} : Honest (proxyGetHeaderMapSize env a b) := by
  unfold proxyGetHeaderMapSize; infer_instance

instance {a b c : I32} : Honest (proxyGetHeaderMapPairs env a b c) := by
  unfold proxyGetHeaderMapPairs; infer_instance

instance {a b c : I32} : Honest (proxySetHeaderMapPairs env a b c) := by
  unfold proxySetHeaderMapPairs; infer_instance

instance {a b c d e : I32} : Honest (proxyGetHeaderMapValue env a b c d e) := by
  unfold proxyGetHeaderMapValue; infer_instance

instance {change : Bytes → Bytes → Multimap.Write Bytes Bytes} {a b c d e : I32} :
    Honest (changeHeaderMapValue env change a b c d e) := by
  unfold changeHeaderMapValue; infer_instance

instance {a b c d e : I32} : Honest (proxyAddHeaderMapValue env a b c d e) := by
  unfold proxyAddHeaderMapValue; infer_instance

instance {a b c d e : I32} : Honest (proxyReplaceHeaderMapValue env a b c d e) := by
  unfold proxyReplaceHeaderMapValue; infer_instance

instance {a b c : I32} : Honest (proxyRemoveHeaderMapValue env a b c) := by
  unfold proxyRemoveHeaderMapValue; infer_instance

instance {buffer : BufferType} : Honest (readBuffer env buffer) := by
  unfold readBuffer
  split <;> infer_instance

instance {buffer : BufferType} : Honest (writeBuffer env buffer) := by
  unfold writeBuffer
  split <;> infer_instance

instance {a b c d e : I32} : Honest (proxyGetBufferBytes env a b c d e) := by
  unfold proxyGetBufferBytes; infer_instance

instance {a b c d e : I32} : Honest (proxySetBufferBytes env a b c d e) := by
  unfold proxySetBufferBytes; infer_instance

instance {a b c : I32} : Honest (proxyGetBufferStatus env a b c) := by
  unfold proxyGetBufferStatus; infer_instance

instance : Honest pluginOf := by unfold pluginOf; infer_instance

instance {which : WellKnown} : Honest (wellKnown which) := by
  cases which <;> unfold wellKnown <;> infer_instance

instance {path : List Bytes} : Honest (property env path) := by
  unfold property
  split <;> infer_instance

instance {path : List Bytes} {value : Bytes} : Honest (setProperty env path value) := by
  unfold setProperty
  split <;> infer_instance

instance {a b c d : I32} : Honest (proxyGetProperty env a b c d) := by
  unfold proxyGetProperty; infer_instance

instance {a b c d : I32} : Honest (proxySetProperty env a b c d) := by
  unfold proxySetProperty; infer_instance

instance {a b c d e f g h : I32} : Honest (proxySendLocalResponse env a b c d e f g h) := by
  unfold proxySendLocalResponse
  dsimp only
  infer_instance

/-- A refusal of the embedder stays one, once the zeros are stored. -/
instance {write : Bytes → Body Unit} [hwrite : ∀ bytes, Honest (write bytes)]
    {answer : Except Status Bytes} :
    Honest (Prog.attempt (fromEmbedder answer) >>= storeResults write) := by
  refine ⟨fun h => ?_⟩
  have hanswer := (inferInstance : Honest (fromEmbedder answer)).honest h
  obtain ⟨exit, hlook⟩ := (inferInstance : Quiet (fromEmbedder answer)).looks h
  rw [hlook] at hanswer
  cases exit with
  | ok value =>
    have hattempt : (Prog.attempt (fromEmbedder answer) : Body _).run h = ⟨.ok (.ok value), h, []⟩ := by
      simp only [Prog.attempt, hlook]
    rw [bind_of_ok_nil hattempt]
    exact (hwrite value).honest h
  | err e =>
    have hattempt : (Prog.attempt (fromEmbedder answer) : Body _).run h = ⟨.ok (.error e), h, []⟩ := by
      simp only [Prog.attempt, hlook]
    rw [bind_of_ok_nil hattempt]
    have hthrow : Honest (Prog.throw e : Body Unit) := ⟨fun _ hexit => by cases hexit; exact hanswer rfl⟩
    have hstore : Honest (storeResults write (.error e)) := by
      unfold storeResults
      infer_instance
    exact hstore.honest h
  | panicked =>
    have hattempt : (Prog.attempt (fromEmbedder answer) : Body (Except Failure Bytes)).run h =
        ⟨.panicked, h, []⟩ := by
      simp only [Prog.attempt, hlook]
    rw [bind_of_panicked hattempt]
    rintro ⟨⟩

instance {a b c d e f : I32} : Honest (proxyCallForeignFunction env a b c d e f) := by
  unfold proxyCallForeignFunction
  dsimp only
  infer_instance

end Stream

/-! ## The shared services -/

section Shared

instance : Honest settle := .act

instance : Honest withinSharedNames := by unfold withinSharedNames; infer_instance

instance {name : SharedName} : Honest (withinSharedNamesUnlessHeld name) := by
  unfold withinSharedNamesUnlessHeld; infer_instance

instance {name : Bytes} {held : SharedName} : Honest (withinNames name held) := by
  unfold withinNames; infer_instance

instance {absent : Status} [Refusal absent] : Honest (withShared absent) := by
  unfold withShared; infer_instance

instance {shared : ServiceId} {call : Invocation} {op : SharedOp} {reply : α → SharedReply}
    {record : α → AbiState → AbiState} {answer : Answer (Except Status α)} :
    Honest (askShared shared call op reply record answer) := by
  unfold askShared; infer_instance

instance {limits : Body Unit} [Honest limits] {op : SharedOp} {reply : α → SharedReply}
    {record : ContextId → α → AbiState → AbiState}
    {answer : Invocation → Answer (Except Status α)} :
    Honest (askWithin limits op reply record answer) := by
  unfold askWithin; infer_instance

instance {holds : AbiState → Bool} {op : SharedOp} {reply : α → SharedReply}
    {answer : Invocation → Answer (Except Status α)} : Honest (askHeld holds op reply answer) := by
  unfold askHeld; infer_instance

instance {a b c d e : I32} : Honest (proxySetSharedData env a b c d e) := by
  unfold proxySetSharedData
  dsimp only
  infer_instance

instance {a b c d e : I32} : Honest (proxyGetSharedData env a b c d e) := by
  unfold proxyGetSharedData; infer_instance

instance {a b c : I32} : Honest (proxyRegisterSharedQueue env a b c) := by
  unfold proxyRegisterSharedQueue; infer_instance

instance {a b c d e : I32} : Honest (proxyResolveSharedQueue env a b c d e) := by
  unfold proxyResolveSharedQueue
  dsimp only
  infer_instance

instance {a b c : I32} : Honest (proxyEnqueueSharedQueue env a b c) := by
  unfold proxyEnqueueSharedQueue; infer_instance

instance {a b c : I32} : Honest (proxyDequeueSharedQueue env a b c) := by
  unfold proxyDequeueSharedQueue; infer_instance

instance {a b c d : I32} : Honest (proxyDefineMetric env a b c d) := by
  unfold proxyDefineMetric; infer_instance

instance {a : I32} {value : I64} : Honest (proxyRecordMetric env a value) := by
  unfold proxyRecordMetric; infer_instance

instance {a : I32} {delta : I64} : Honest (proxyIncrementMetric env a delta) := by
  unfold proxyIncrementMetric; infer_instance

instance {a b : I32} : Honest (proxyGetMetric env a b) := by
  unfold proxyGetMetric; infer_instance

end Shared

/-! ## The callouts -/

section Callout

instance {call : Invocation} {id : CalloutId} {op : CalloutOp}
    {record : Bool → CalloutTable → CalloutTable} {answer : Answer (Except Status Unit)} :
    Honest (askCallout call id op record answer) := by
  unfold askCallout; infer_instance

/-- A service that refuses to open a callout with a refusal. -/
class RefusesWell (ask : Invocation → CalloutId → Answer (Except Status Unit)) : Prop where
  ne_ok : ∀ call id, ask call id ≠ some (.error .ok)

instance {ask : Invocation → CalloutId → Answer (Except HttpCallRefusal Unit)} :
    RefusesWell fun call id => (ask call id).map fun a => a.mapError (·.toStatus) := by
  refine ⟨fun call id => ?_⟩
  rcases ask call id with _ | (_ | _) | _ <;> rintro ⟨⟩

instance {ask : Invocation → CalloutId → Answer (Except GrpcOpenRefusal Unit)} :
    RefusesWell fun call id => (ask call id).map fun a => a.mapError (·.toStatus) := by
  refine ⟨fun call id => ?_⟩
  rcases ask call id with _ | (_ | _) | _ <;> rintro ⟨⟩

/-- The answer of a service that was asked to open a callout. -/
theorem honest_asked {call : Invocation} {id : CalloutId} {op : CalloutOp}
    {record : Bool → CalloutTable → CalloutTable} {answer : Answer (Except Status Unit)}
    (hanswer : answer ≠ some (.error .ok)) :
    Honest (do
      let answer ← askCallout call id op record answer
      Prog.ofExcept (answer.mapError Failure.status)
      return id) := by
  refine ⟨fun h => ?_⟩
  rcases answer with _ | status | _
  · rintro ⟨⟩
  · intro hexit
    cases hexit
    exact hanswer rfl
  · rintro ⟨⟩

instance {kind : CalloutKind} {op : CalloutOp}
    {ask : Invocation → CalloutId → Answer (Except Status Unit)} [hask : RefusesWell ask] :
    Honest (openCallout kind op ask) := by
  unfold openCallout
  have hasked := fun call id record => @honest_asked call id op record _ (hask.ne_ok call id)
  infer_instance

instance {a b c d e f g h i j : I32} : Honest (proxyHttpCall env a b c d e f g h i j) := by
  unfold proxyHttpCall
  dsimp only
  infer_instance

instance {a b c d e f g h i j k l : I32} :
    Honest (proxyGrpcCall env a b c d e f g h i j k l) := by
  unfold proxyGrpcCall
  dsimp only
  infer_instance

instance {a b c d e f g h i : I32} : Honest (proxyGrpcStream env a b c d e f g h i) := by
  unfold proxyGrpcStream
  dsimp only
  infer_instance

instance {id : I32} : Honest (find id) := by
  unfold find
  refine .andThen inferInstance fun callout => .andThen inferInstance fun callouts => ?_
  cases callouts.get callout <;> infer_instance

instance {a b c d : I32} : Honest (proxyGrpcSend env a b c d) := by
  unfold proxyGrpcSend
  dsimp only
  refine .andThen inferInstance fun message => .andThen inferInstance fun memory => ?_
  refine .andThen inferInstance fun bytes => .andThen inferInstance fun found => ?_
  cases found <;> dsimp only <;> infer_instance

instance {id : CalloutId} : Honest (endCallout env id) := by
  unfold endCallout
  refine .andThen inferInstance fun caller => ?_
  cases caller <;> infer_instance

instance {a : I32} : Honest (proxyGrpcCancel env a) := by
  unfold proxyGrpcCancel
  refine .andThen inferInstance fun memory => .andThen inferInstance fun found => ?_
  cases found <;> infer_instance

instance {a : I32} : Honest (proxyGrpcClose env a) := by
  unfold proxyGrpcClose
  refine .andThen inferInstance fun memory => .andThen inferInstance fun found => ?_
  rcases found with ⟨callout, entry⟩ | _
  · dsimp only
    cases entry.kind <;> infer_instance
  · infer_instance

instance {a b c : I32} : Honest (proxyGetStatus env a b c) := by
  unfold proxyGetStatus; infer_instance

end Callout

/-! ## The log and the clock -/

section Log

instance {level : LogLevel} {message : Bytes} : Honest (writeLog env level message) := by
  unfold writeLog; infer_instance

instance {a b c : I32} : Honest (proxyLog env a b c) := by unfold proxyLog; infer_instance

instance {a : I32} : Honest (proxyGetLogLevel a) := by unfold proxyGetLogLevel; infer_instance

instance {a : I32} : Honest (proxyGetCurrentTimeNanoseconds env a) := by
  unfold proxyGetCurrentTimeNanoseconds; infer_instance

end Log

end ProxyWasmHost
