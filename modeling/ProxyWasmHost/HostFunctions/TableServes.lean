/-
  Every host function of the table serves, so a call of one follows `HostStep`.
-/
import ProxyWasmHost.HostFunctions.Serves

namespace ProxyWasmHost

open Prog Serves

/-- A guest whose allocator is guest code. -/
class AllocatorRuns (env : Env) : Prop where
  runs : ∀ size, GuestRuns (env.allocator size)

set_option synthInstance.maxSize 100000

section Stream

variable {env : Env} [henv : AllocatorRuns env]

instance {size : I32} : GuestRuns (env.allocator size) := henv.runs size

instance {bytes : Bytes} {returnData returnSize : GuestPtr} :
    Serves (env.writeReturn bytes returnData returnSize) := by
  unfold Env.writeReturn; infer_instance

/-! ## The context, the tick and the stream -/

theorem rootOf_of_setTickPeriod {t : ContextTable} {c : ContextId} {period : Option ℕ}
    (h : (t.setTickPeriod c period).1 = true) : ∃ root, t.rootOf c = some root := by
  rcases t.setTickPeriod_cases c period with heq | ⟨root, entry, hroot, -, -⟩
  · rw [heq] at h
    cases h
  · exact ⟨root, hroot⟩

instance : Serves proxyDone := by
  refine ⟨fun h live => ?_⟩
  unfold proxyDone
  refine .bind_read (.bind_orThrow (fun c heff => ?_) fun _ _ => live)
  refine .bind_require (fun hdone => ?_) fun _ _ => live
  exact .act (.done heff hdone) live

instance {a : I32} : Serves (proxySetEffectiveContext a) := by
  refine ⟨fun h live => ?_⟩
  unfold proxySetEffectiveContext
  refine .bind_orThrow (fun id _ => ?_) fun _ _ => live
  refine .bind_read (.bind_orThrow (fun current heff => ?_) fun _ _ => live)
  refine .bind_require (fun hroot => ?_) fun _ _ => live
  refine .bind_require (fun hrej => ?_) fun _ _ => live
  refine .bind_require (fun hid => ?_) fun _ _ => live
  exact .modify (.setEffective heff hroot (Bool.eq_false_of_not_eq_true hrej) hid) live

instance {a : I32} : Serves (proxySetTickPeriodMilliseconds a) := by
  refine ⟨fun h live => ?_⟩
  unfold proxySetTickPeriodMilliseconds
  refine bind_finds live context_finds fun c hc => ?_
  refine .bind_read (.bind_require (fun hset => ?_) fun _ _ => live)
  obtain ⟨root, hroot⟩ := rootOf_of_setTickPeriod hset
  have hstep := HostStep.tickPeriod _ live hc hroot hset
  refine .modify ?_ live
  have hroot' := (ContextTable.Keeps.setTickPeriod h.abi.contexts c
    (if a.toNat > 0 then some a.toNat else none)).rootOf c
  rw [hroot] at hroot'
  simp only [HostState.mapAbi, AbiState.withContexts, hroot'] at hstep ⊢
  exact hstep

instance {a : I32} : Serves (proxyContinueStream env a) := by
  unfold proxyContinueStream; infer_instance

instance {a : I32} : Serves (proxyCloseStream env a) := by
  unfold proxyCloseStream; infer_instance

/-! ## Header maps and buffers -/

instance {mapType : MapType} {access : Access} : Serves (headerMap env mapType access) := by
  unfold headerMap
  split
  · infer_instance
  · rename_i hserves
    have : Unserved (.headerMap access mapType) := ⟨MapType.resource_of_none hserves⟩
    infer_instance

/-- A map that is found for writing is none that a delivery serves. -/
instance {mapType : MapType} {write : Multimap.Write Bytes Bytes} :
    Serves (headerMap env mapType .write >>= fun map => changed mapType map write) := by
  unfold headerMap
  split
  · refine ⟨fun h live => Serves.bind_finds (P := fun _ => False) live ?_ fun _ => False.elim⟩
    exact .bind_read .throw
  · rename_i hserves
    have : Unserved (.headerMap .write mapType) := ⟨MapType.resource_of_none hserves⟩
    have : Unserved (.writeMap mapType write) := ⟨MapType.resource_of_none hserves⟩
    unfold changed
    infer_instance

instance {a b : I32} : Serves (proxyGetHeaderMapSize env a b) := by
  unfold proxyGetHeaderMapSize; infer_instance

instance {a b c : I32} : Serves (proxyGetHeaderMapPairs env a b c) := by
  unfold proxyGetHeaderMapPairs; infer_instance

instance {a b c : I32} : Serves (proxySetHeaderMapPairs env a b c) := by
  unfold proxySetHeaderMapPairs; infer_instance

instance {a b c d e : I32} : Serves (proxyGetHeaderMapValue env a b c d e) := by
  unfold proxyGetHeaderMapValue; infer_instance

instance {change : Bytes → Bytes → Multimap.Write Bytes Bytes} {a b c d e : I32} :
    Serves (changeHeaderMapValue env change a b c d e) := by
  unfold changeHeaderMapValue; infer_instance

instance {a b c d e : I32} : Serves (proxyAddHeaderMapValue env a b c d e) := by
  unfold proxyAddHeaderMapValue; infer_instance

instance {a b c d e : I32} : Serves (proxyReplaceHeaderMapValue env a b c d e) := by
  unfold proxyReplaceHeaderMapValue; infer_instance

instance {a b c : I32} : Serves (proxyRemoveHeaderMapValue env a b c) := by
  unfold proxyRemoveHeaderMapValue; infer_instance

instance {buffer : BufferType} :
    Serves (Prog.modify (·.mapAbi fun abi => (abi.takeAnnounced buffer).2) : Body Unit) :=
  ⟨fun h live => .modify (.announced h buffer) live⟩

instance {buffer : BufferType} : Serves (readBuffer env buffer) := by
  unfold readBuffer
  split
  · infer_instance
  · infer_instance
  · infer_instance
  · rename_i hserved
    have : Unserved (.buffer .read buffer) := ⟨BufferType.resource_of_embedder hserved⟩
    infer_instance

instance {buffer : BufferType} : Serves (writeBuffer env buffer) := by
  unfold writeBuffer
  split
  · infer_instance
  · rename_i hserved
    have : Unserved (.buffer .write buffer) := ⟨BufferType.resource_of_embedder hserved⟩
    infer_instance

instance {a b c d e : I32} : Serves (proxyGetBufferBytes env a b c d e) := by
  unfold proxyGetBufferBytes; infer_instance

instance {a b c d e : I32} : Serves (proxySetBufferBytes env a b c d e) := by
  unfold proxySetBufferBytes; infer_instance

instance {a b c : I32} : Serves (proxyGetBufferStatus env a b c) := by
  unfold proxyGetBufferStatus; infer_instance

/-! ## Properties, local responses and foreign functions -/

instance {path : List Bytes} : Serves (property env path) := by
  unfold property
  split
  · infer_instance
  · rename_i hserved
    have : Unserved (.property path) := ⟨pathResource_of_embedder hserved⟩
    infer_instance

instance {path : List Bytes} {value : Bytes} : Serves (setProperty env path value) := by
  unfold setProperty
  split
  · infer_instance
  · rename_i hserved
    have : Unserved (.setProperty path value) := ⟨pathResource_of_embedder hserved⟩
    infer_instance

instance {a b c d : I32} : Serves (proxyGetProperty env a b c d) := by
  unfold proxyGetProperty; infer_instance

instance {a b c d : I32} : Serves (proxySetProperty env a b c d) := by
  unfold proxySetProperty; infer_instance

instance {a b c d e f g h : I32} : Serves (proxySendLocalResponse env a b c d e f g h) := by
  unfold proxySendLocalResponse
  dsimp only
  infer_instance

instance {write : Bytes → Body Unit} [∀ bytes, Serves (write bytes)]
    {answer : Except Failure Bytes} : Serves (storeResults write answer) := by
  cases answer <;> unfold storeResults <;> infer_instance

instance {a b c d e f : I32} : Serves (proxyCallForeignFunction env a b c d e f) := by
  unfold proxyCallForeignFunction
  dsimp only
  infer_instance

end Stream

/-! ## The shared services -/

namespace AbiState

variable {abi : AbiState}

/-- The grants are the ones of the shared services the guest has. -/
theorem settled_settle (abi : AbiState) :
    abi.settle.grantedAgainst = some abi.settle.services.shared := by
  unfold settle
  dsimp only
  split
  · assumption
  · rfl

theorem services_settle (abi : AbiState) : abi.settle.services = abi.services := by
  unfold settle
  dsimp only
  split <;> rfl

theorem settle_of_settled (h : abi.grantedAgainst = some abi.services.shared) :
    abi.settle = abi := by
  unfold settle
  dsimp only
  rw [if_pos h]

theorem recordShared_of_refused {caller : ContextId} {op : SharedOp}
    {answer : Answer (Except Status SharedReply)} (h : ∀ reply, answer ≠ some (.ok reply)) :
    abi.recordShared caller op answer = abi := by
  unfold recordShared
  split
  · exact absurd rfl (h _)
  · exact absurd rfl (h _)
  · exact absurd rfl (h _)
  · rfl

end AbiState

section Shared

variable {env : Env} [henv : AllocatorRuns env] {α : Type} {h : HostState}

/-- What an operation of the shared services records in the model is what the step
    relation says. -/
def Records (op : SharedOp) (reply : α → SharedReply)
    (record : ContextId → α → AbiState → AbiState) : Prop :=
  ∀ abi caller a, AbiState.recordShared abi caller op (some (.ok (reply a))) = record caller a abi

theorem askShared_follows {c : ContextId} {op : SharedOp} {reply : α → SharedReply}
    {record : ContextId → α → AbiState → AbiState} {answer : Answer (Except Status α)}
    (hrecord : Records op reply record) (live : h.poisoned = false)
    (hc : h.abi.context = some c) (hgranted : h.abi.grantedAgainst = some h.abi.services.shared)
    (hholds : h.abi.Holds op) (hroom : h.HasRoom op) :
    At h (askShared h.abi.services.shared (h.abi.invocation c) op reply (record c) answer) := by
  have hstep := HostStep.shared op (answer.map fun a => a.map reply) live hc hgranted hholds
    hroom
  have hrecorded : (fun abi : AbiState => abi.recordShared c op (answer.map fun a => a.map reply)) =
      recorded (record c) answer := by
    funext abi
    rcases answer with _ | _ | a
    · exact AbiState.recordShared_of_refused (by rintro reply ⟨⟩)
    · exact AbiState.recordShared_of_refused (by rintro reply ⟨⟩)
    · exact hrecord abi c a
  rw [hrecorded] at hstep
  exact .bind_act hstep (.orPanic (fun _ _ => live) fun _ => trivial)

theorem hasRoom_of_unnamed {op : SharedOp} (hop : op.sharedName = none) : h.HasRoom op := by
  intro name hname
  rw [hop] at hname
  cases hname

theorem askWithin_follows {limits : Body Unit} {op : SharedOp} {reply : α → SharedReply}
    {record : ContextId → α → AbiState → AbiState}
    {answer : Invocation → Answer (Except Status α)} (hrecord : Records op reply record)
    (live : h.poisoned = false) (hholds : h.abi.settle.Holds op)
    (hlimits : ∀ h, Finds limits (fun _ => h.HasRoom op) h) :
    At h (askWithin limits op reply record answer) := by
  unfold askWithin
  refine .bind (M := fun asked h' => h' = h.mapAbi AbiState.settle ∧
    asked.1 = h'.abi.services.shared ∧
    ∃ c, h'.abi.context = some c ∧ asked.2 = h'.abi.invocation c) ?_ ?_
  · refine .bind_read (.bind_act (.settled h) ?_)
    refine .bind (M := fun c h' => h' = h.mapAbi AbiState.settle ∧ h'.abi.context = some c) ?_ ?_
    · exact .bind_read (.orThrow (fun c hc => ⟨rfl, hc⟩) fun _ _ => live)
    · rintro c _ ⟨rfl, hc⟩
      refine .bind_read (.pure ⟨rfl, ?_, c, hc, rfl⟩)
      exact h.abi.services_settle.symm ▸ rfl
  · rintro ⟨shared, call⟩ _ ⟨rfl, hshared, c, hc, hcall⟩
    dsimp only at hshared hcall ⊢
    subst hshared hcall
    refine .bind_finds (hlimits _) (fun _ hroom => ?_) (fun _ _ => live) trivial
    exact .bind (askShared_follows hrecord live hc h.abi.settled_settle hholds hroom)
      fun a h' live' => Serves.quiet.follows h' live'

theorem askHeld_serves {holds : AbiState → Bool} {op : SharedOp} {reply : α → SharedReply}
    {answer : Invocation → Answer (Except Status α)} (hrecord : Records op reply recordNothing)
    (hholds : ∀ abi : AbiState, holds abi = true → abi.Holds op) (hop : op.sharedName = none) :
    Serves (askHeld holds op reply answer) := by
  refine ⟨fun h live => ?_⟩
  unfold askHeld
  refine .bind_act (.settled h) (.bind_read (.bind_require (fun hheld => ?_) fun _ _ => live))
  refine askWithin_follows hrecord live ?_ fun _ => .pure (hasRoom_of_unnamed hop)
  rw [show (h.mapAbi AbiState.settle).abi.settle = h.abi.settle from
    AbiState.settle_of_settled h.abi.settled_settle]
  exact hholds _ hheld

theorem askWithin_serves {limits : Body Unit} {op : SharedOp} {reply : α → SharedReply}
    {record : ContextId → α → AbiState → AbiState}
    {answer : Invocation → Answer (Except Status α)} (hrecord : Records op reply record)
    (hholds : ∀ abi : AbiState, abi.Holds op)
    (hlimits : ∀ h, Finds limits (fun _ => h.HasRoom op) h) :
    Serves (askWithin limits op reply record answer) :=
  ⟨fun _ live => askWithin_follows hrecord live (hholds _) hlimits⟩

/-- The two limits of a name leave room for an operation that asks for it. -/
theorem withinNames_finds {name : Bytes} {held : SharedName} {op : SharedOp}
    (hop : op.sharedName = some held) :
    Finds (withinNames name held) (fun _ => h.HasRoom op) h := by
  unfold withinNames withinSharedNamesUnlessHeld
  refine Finds.quiet.bind fun _ _ => .bind_read ?_
  split
  · rename_i hheld
    refine .pure fun name' hname => ?_
    rw [hop] at hname
    cases hname
    exact .inl hheld
  · refine .bind_read (.bind_read (Finds.require.mono fun _ hroom name' hname => ?_))
    rw [hop] at hname
    cases hname
    exact .inr hroom

instance {a b c d e : I32} : Serves (proxySetSharedData env a b c d e) := by
  have hask : ∀ vmId key value cas, Serves (askWithin (withinNameBytes key .internalFailure)
      (.setSharedData vmId key value cas) (fun _ => .done) recordNothing
      (env.world.shared.setSharedData · vmId key value cas)) :=
    fun _ _ _ _ => askWithin_serves (fun _ _ _ => rfl) (fun _ => trivial)
      fun _ => Finds.quiet.mono fun _ _ => hasRoom_of_unnamed rfl
  unfold proxySetSharedData
  dsimp only
  infer_instance

instance {a b c d e : I32} : Serves (proxyGetSharedData env a b c d e) := by
  have hask : ∀ vmId key, Serves (askWithin (withinNameBytes key .notFound)
      (.getSharedData vmId key) .value recordNothing
      (env.world.shared.getSharedData · vmId key)) :=
    fun _ _ => askWithin_serves (fun _ _ _ => rfl) (fun _ => trivial)
      fun _ => Finds.quiet.mono fun _ _ => hasRoom_of_unnamed rfl
  unfold proxyGetSharedData
  infer_instance

instance {a b c : I32} : Serves (proxyRegisterSharedQueue env a b c) := by
  have hask : ∀ vmId name, Serves (askWithin (withinNames name (.registered name))
      (.registerSharedQueue vmId name) .queue (recordRegistered name)
      (env.world.shared.registerSharedQueue · vmId name)) :=
    fun _ _ => askWithin_serves (fun _ _ _ => rfl) (fun _ => trivial)
      fun _ => withinNames_finds rfl
  unfold proxyRegisterSharedQueue
  infer_instance

instance {a b c d e : I32} : Serves (proxyResolveSharedQueue env a b c d e) := by
  have hask : ∀ vmId name, Serves (askWithin (withinNames name (.resolved vmId name))
      (.resolveSharedQueue vmId name) .queue (recordResolved vmId name)
      (env.world.shared.resolveSharedQueue · vmId name)) :=
    fun _ _ => askWithin_serves (fun _ _ _ => rfl) (fun _ => trivial)
      fun _ => withinNames_finds rfl
  unfold proxyResolveSharedQueue
  dsimp only
  infer_instance

instance {a b c : I32} : Serves (proxyEnqueueSharedQueue env a b c) := by
  have hask : ∀ queue value, Serves (askHeld (·.holdsQueue queue)
      (.enqueueSharedQueue queue value) (fun _ => .done)
      (env.world.shared.enqueueSharedQueue · queue value)) :=
    fun _ _ => askHeld_serves (fun _ _ _ => rfl) (fun _ => of_decide_eq_true) rfl
  unfold proxyEnqueueSharedQueue
  infer_instance

instance {a b c : I32} : Serves (proxyDequeueSharedQueue env a b c) := by
  have hask : ∀ queue, Serves (askHeld (·.holdsQueue queue) (.dequeueSharedQueue queue) .bytes
      (env.world.shared.dequeueSharedQueue · queue)) :=
    fun _ => askHeld_serves (fun _ _ _ => rfl) (fun _ => of_decide_eq_true) rfl
  unfold proxyDequeueSharedQueue
  infer_instance

instance {a b c d : I32} : Serves (proxyDefineMetric env a b c d) := by
  have hask : ∀ vmId kind name, Serves (askWithin
      (withinNames name (.metric (MetricType.toI32 kind) name))
      (.defineMetric vmId kind name) .metric (recordDefined kind name)
      (env.world.shared.defineMetric · vmId kind name)) :=
    fun _ _ _ => askWithin_serves (fun _ _ _ => rfl) (fun _ => trivial)
      fun _ => withinNames_finds rfl
  unfold proxyDefineMetric
  infer_instance

instance {a : I32} {value : I64} : Serves (proxyRecordMetric env a value) := by
  have hask : ∀ metric, Serves (askHeld (·.holdsMetric metric) (.recordMetric metric value)
      (fun _ => .done) (env.world.shared.recordMetric · metric value)) :=
    fun _ => askHeld_serves (fun _ _ _ => rfl) (fun _ => of_decide_eq_true) rfl
  unfold proxyRecordMetric
  infer_instance

instance {a : I32} {delta : I64} : Serves (proxyIncrementMetric env a delta) := by
  have hask : ∀ metric, Serves (askHeld (·.holdsMetric metric)
      (.incrementMetric metric delta.toInt64) (fun _ => .done)
      (env.world.shared.incrementMetric · metric delta.toInt64)) :=
    fun _ => askHeld_serves (fun _ _ _ => rfl) (fun _ => of_decide_eq_true) rfl
  unfold proxyIncrementMetric
  infer_instance

instance {a b : I32} : Serves (proxyGetMetric env a b) := by
  have hask : ∀ metric, Serves (askHeld (·.holdsMetric metric) (.getMetric metric) .number
      (env.world.shared.getMetric · metric)) :=
    fun _ => askHeld_serves (fun _ _ _ => rfl) (fun _ => of_decide_eq_true) rfl
  unfold proxyGetMetric
  infer_instance

end Shared

/-! ## The callouts -/

section Callout

variable {env : Env} [henv : AllocatorRuns env] {h : HostState}

theorem askCallout_follows {call : Invocation} {id : CalloutId} {op : CalloutOp}
    {record : Bool → CalloutTable → CalloutTable} {answer : Answer (Except Status Unit)}
    (live : h.poisoned = false)
    (hstep : HostStep h [.callout h.abi.services.callouts call id op answer]
      (h.mapAbi fun abi => abi.withCallouts (record (accepts answer) abi.callouts))) :
    At h (askCallout call id op record answer) :=
  .bind_act hstep (.orPanic (fun _ _ => live) fun _ => trivial)

theorem openCallout_serves {kind : CalloutKind} {op : CalloutOp}
    {ask : Invocation → CalloutId → Answer (Except Status Unit)} (hop : op.opens = some kind) :
    Serves (openCallout kind op ask) := by
  refine ⟨fun h live => ?_⟩
  unfold openCallout
  refine bind_finds live context_finds fun c hc => ?_
  refine .bind_read (.bind_orThrow (fun root hroot => ?_) fun _ _ => live)
  refine .bind_read (.bind_require (fun hdel => ?_) fun _ _ => live)
  refine .bind_read (.bind_read (.bind_require (fun hlen => ?_) fun _ _ => live))
  refine .bind_read (.bind_read (.bind_orPanic (fun reserved hres => ?_) fun _ => trivial))
  refine .bind (askCallout_follows live ?_) fun answer h' live' => Serves.quiet.follows h' live'
  exact .opened _ live hc hroot (Bool.eq_false_of_not_eq_true hdel) hlen hres hop

instance {a b c d e f g h i j : I32} : Serves (proxyHttpCall env a b c d e f g h i j) := by
  have hopen : ∀ request, Serves (openCallout .httpCall (.httpCall request) fun call id =>
      (env.world.callouts.httpCall call id request).map fun a => a.mapError (·.toStatus)) :=
    fun _ => openCallout_serves rfl
  unfold proxyHttpCall
  dsimp only
  infer_instance

instance {a b c d e f g h i j k l : I32} :
    Serves (proxyGrpcCall env a b c d e f g h i j k l) := by
  have hopen : ∀ request, Serves (openCallout .grpcCall (.grpcCall request) fun call id =>
      (env.world.callouts.grpcCall call id request).map fun a => a.mapError (·.toStatus)) :=
    fun _ => openCallout_serves rfl
  unfold proxyGrpcCall
  dsimp only
  infer_instance

instance {a b c d e f g h i : I32} : Serves (proxyGrpcStream env a b c d e f g h i) := by
  have hopen : ∀ request, Serves (openCallout .grpcStream (.grpcStream request) fun call id =>
      (env.world.callouts.grpcStream call id request).map fun a => a.mapError (·.toStatus)) :=
    fun _ => openCallout_serves rfl
  unfold proxyGrpcStream
  dsimp only
  infer_instance

/-- What `find` finds is open, and of the effective context. -/
theorem find_finds {id : I32} :
    Finds (find id) (fun found => ∀ callout entry, found = .opened callout entry →
      h.abi.callouts.get callout = some entry ∧ h.abi.context = some entry.caller) h := by
  refine Finds.orThrow.bind fun callout _ => .bind_read ?_
  cases hget : h.abi.callouts.get callout with
  | none => exact Finds.require.bind fun _ _ => .pure (by rintro _ _ ⟨⟩)
  | some entry =>
    refine context_finds.bind fun c hc => Finds.require.bind fun _ hcaller => .pure ?_
    rintro _ _ ⟨⟩
    exact ⟨hget, hcaller ▸ hc⟩

/-- What comes after `find`, by what it found. -/
theorem bind_find {id : I32} {β : Type} {f : Found → Body β} (live : h.poisoned = false)
    (hended : At h (f .ended))
    (hopened : ∀ callout entry, h.abi.callouts.get callout = some entry →
      h.abi.context = some entry.caller → At h (f (.opened callout entry))) :
    At h (find id >>= f) := by
  refine bind_finds live find_finds ?_
  rintro (⟨callout, entry⟩ | _) hfound
  · exact hopened _ _ (hfound _ _ rfl).1 (hfound _ _ rfl).2
  · exact hended

instance {a b c d : I32} : Serves (proxyGrpcSend env a b c d) := by
  refine ⟨fun h live => ?_⟩
  unfold proxyGrpcSend
  refine .bind_quiet (fun message => .bind_quiet (fun memory => .bind_quiet (fun bytes => ?_)
    (fun _ _ => live) trivial) (fun _ _ => live) trivial) (fun _ _ => live) trivial
  refine bind_find live (.pure live) fun callout entry hget hc => ?_
  refine .bind_require (fun hkind => ?_) fun _ _ => live
  split
  · exact .pure live
  · rename_i hopen
    refine bind_finds live context_finds fun c hc' => ?_
    obtain rfl : entry.caller = c := Option.some.inj (hc.symm.trans hc')
    refine .bind_read (.bind (askCallout_follows live ?_)
      fun answer h' live' => Serves.quiet.follows h' live')
    exact .sent _ _ _ live hc hget hkind (Bool.eq_false_of_not_eq_true hopen)

omit henv in
theorem endCallout_follows {callout : CalloutId} {entry : Callout} (live : h.poisoned = false)
    (hget : h.abi.callouts.get callout = some entry) (hc : h.abi.context = some entry.caller)
    (hkind : entry.kind ≠ .httpCall) : At h (endCallout env callout) := by
  unfold endCallout
  refine .bind_read ?_
  rw [hc]
  refine .bind_read (.bind (askCallout_follows live (.cancelled _ live hc hget hkind)) ?_)
  exact fun _ _ live' => .pure live'

instance {a : I32} : Serves (proxyGrpcCancel env a) := by
  refine ⟨fun h live => ?_⟩
  unfold proxyGrpcCancel
  refine .bind_quiet (fun _ => bind_find live (.pure live) fun callout entry hget hc => ?_)
    (fun _ _ => live) trivial
  exact .bind_require (fun hkind => endCallout_follows live hget hc hkind) fun _ _ => live

instance {a : I32} : Serves (proxyGrpcClose env a) := by
  refine ⟨fun h live => ?_⟩
  unfold proxyGrpcClose
  refine .bind_quiet (fun _ => bind_find live (.pure live) fun callout entry hget hc => ?_)
    (fun _ _ => live) trivial
  dsimp only
  split
  · exact Serves.quiet.follows h live
  · rename_i hkind
    exact endCallout_follows live hget hc (by rw [hkind]; decide)
  · rename_i hkind
    split
    · exact .pure live
    · rename_i hopen
      refine bind_finds live context_finds fun c hc' => ?_
      obtain rfl : entry.caller = c := Option.some.inj (hc.symm.trans hc')
      refine .bind_read (.bind (askCallout_follows live ?_) fun _ h' live' => .pure live')
      exact .closed _ live hc hget hkind (Bool.eq_false_of_not_eq_true hopen)

instance {a b c : I32} : Serves (proxyGetStatus env a b c) := by
  unfold proxyGetStatus
  infer_instance

end Callout

/-! ## WASI -/

section Wasi

variable {env : Env}

instance {ε : Type} [Unwinding ε] {level : LogLevel} {message : Bytes} :
    Serves (writeLog env level message : Prog HostState Event ε Unit) := by
  refine ⟨fun h live => ?_⟩
  unfold writeLog
  exact .bind_read (.bind_emit (.logged h level message)
    (.orPanic (fun _ _ => live) fun _ => trivial))

instance {a b c : I32} : Serves (proxyLog env a b c) := by unfold proxyLog; infer_instance

instance {a : I32} : Serves (proxyGetLogLevel a) := by unfold proxyGetLogLevel; infer_instance

instance {a : I32} : Serves (proxyGetCurrentTimeNanoseconds env a) := by
  unfold proxyGetCurrentTimeNanoseconds; infer_instance

instance wasiWrite_serves {write : Bytes → Except MemoryError Bytes} :
    Serves (Wasi.write write) := by
  unfold Wasi.write; infer_instance

instance gather_quiet {memory : Bytes} {budget : ℕ} :
    ∀ entries message, Quiet (Wasi.gather memory budget entries message)
  | [], message => by unfold Wasi.gather; infer_instance
  | entry :: entries, message => by
    have : ∀ message, Quiet (Wasi.gather memory budget entries message) := gather_quiet entries
    unfold Wasi.gather
    dsimp only
    infer_instance

instance environPointers_quiet :
    ∀ environment offset, Quiet (Wasi.environPointers environment offset)
  | [], offset => by unfold Wasi.environPointers; infer_instance
  | (key, value) :: environment, offset => by
    have := environPointers_quiet environment
    unfold Wasi.environPointers
    dsimp only
    infer_instance

instance {start : GuestPtr} {block : Bytes} : Serves (Wasi.writeBlock start block) := by
  unfold Wasi.writeBlock; infer_instance

instance {a b c d : I32} : Serves (Wasi.fdWrite env a b c d) := by
  unfold Wasi.fdWrite
  dsimp only
  infer_instance

instance {a b : I32} : Serves (Wasi.clockTimeGet env a b) := by
  unfold Wasi.clockTimeGet; infer_instance

instance {a b : I32} : Serves (Wasi.randomGet env a b) := by
  unfold Wasi.randomGet; infer_instance

instance {a b : I32} : Serves (Wasi.environSizesGet a b) := by
  unfold Wasi.environSizesGet
  dsimp only
  infer_instance

instance {a b : I32} : Serves (Wasi.environGet a b) := by
  unfold Wasi.environGet; infer_instance

instance {a b : I32} : Serves (Wasi.argsSizesGet a b) := by
  unfold Wasi.argsSizesGet; infer_instance

end Wasi

/-! ## The table -/

section Table

variable {env : Env} [henv : AllocatorRuns env]

instance complete_runs {body : Body Unit} [hbody : Serves body] : GuestRuns (complete body) := by
  refine ⟨fun h live => ?_⟩
  unfold complete
  refine .bind (M := fun answer h' => ∀ e, answer = .error (.status e) ∨ answer = .ok () →
    h'.poisoned = false) (.attempt ((hbody.follows h live).mono ?_ ?_ fun _ hu => hu)) ?_
  · intro _ h' live' e _
    exact live'
  · rintro (status | error) h' he e' (he' | he')
    · exact he rfl
    · cases he'
    · cases he'
    · cases he'
  · rintro ((status | ⟨error, hunwinds⟩) | _) h' hanswer
    · exact .pure (hanswer status (.inl rfl))
    · exact .throw hunwinds
    · exact .pure (hanswer .ok (.inr rfl))

instance errno_runs {body : Wasi Unit} [hbody : Serves body] : GuestRuns (errno body) := by
  refine ⟨fun h live => ?_⟩
  unfold errno
  refine .bind (M := fun _ h' => h'.poisoned = false)
    (.attempt ((hbody.follows h live).mono (fun _ _ hq => hq) (fun _ _ he => he rfl)
      fun _ hu => hu)) ?_
  rintro (error | _) h' live'
  · exact .pure live'
  · exact .pure live'

/-- **A call of any host function follows `HostStep`.** -/
theorem hostCall_runs (function : HostCall) : GuestRuns (function.run env) := by
  cases function with
  | argsGet => exact ⟨fun h live => .pure live⟩
  | procExit code => exact ⟨fun h live => .throw rfl⟩
  | _ => unfold HostCall.run; infer_instance

end Table

end ProxyWasmHost
