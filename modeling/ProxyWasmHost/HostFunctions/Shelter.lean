/-
  Where the host writes in the memory of a guest: at the return pointers of a call, and in the
  blocks that the guest's own allocator hands out. Bytes that the guest keeps to itself stay.
-/
import ProxyWasmHost.HostFunctions.Environ
import ProxyWasmHost.HostFunctions.Within

namespace ProxyWasmHost

open Prog GuestMemory

set_option synthInstance.maxSize 100000

/-! ## What a call lets the host write -/

/-- The addresses that a pointer covers. -/
def Pointer.Covers : Pointer → ℕ → Prop
  | .range ptr len, i => ptr.toNat ≤ i ∧ i < ptr.toNat + len.toNat
  | .word ptr, i => ptr.toNat ≤ i ∧ i < ptr.toNat + 4
  | .long ptr, i => ptr.toNat ≤ i ∧ i < ptr.toNat + 8

/-- The pointers that a call gives for the host to write at, in a VM with this environment. -/
def HostCall.outputs (environment : List Pair) : HostCall → List Pointer
  | .proxyGetLogLevel level => [.word level]
  | .proxyGetCurrentTimeNanoseconds time => [.long time]
  | .proxyGetBufferBytes _ _ _ data size => [.word data, .word size]
  | .proxyGetBufferStatus _ size unused => [.word size, .word unused]
  | .proxyGetHeaderMapSize _ size => [.word size]
  | .proxyGetHeaderMapPairs _ data size => [.word data, .word size]
  | .proxyGetHeaderMapValue _ _ _ data size => [.word data, .word size]
  | .proxyGetStatus code data size => [.word code, .word data, .word size]
  | .proxyHttpCall _ _ _ _ _ _ _ _ _ callId => [.word callId]
  | .proxyGrpcCall _ _ _ _ _ _ _ _ _ _ _ callId => [.word callId]
  | .proxyGrpcStream _ _ _ _ _ _ _ _ streamId => [.word streamId]
  | .proxyGetSharedData _ _ data size cas => [.word data, .word size, .word cas]
  | .proxyRegisterSharedQueue _ _ queueId => [.word queueId]
  | .proxyResolveSharedQueue _ _ _ _ queueId => [.word queueId]
  | .proxyDequeueSharedQueue _ data size => [.word data, .word size]
  | .proxyDefineMetric _ _ _ metricId => [.word metricId]
  | .proxyGetMetric _ value => [.long value]
  | .proxyGetProperty _ _ data size => [.word data, .word size]
  | .proxyCallForeignFunction _ _ _ _ data size => wantedWord data ++ wantedWord size
  | .fdWrite _ _ _ nwritten => [.word nwritten]
  | .clockTimeGet _ _ time => [.long time]
  | .randomGet buf len => [.range buf len]
  | .environSizesGet count size => [.word count, .word size]
  | .environGet array buffer =>
    [.range array (UInt32.ofNat (4 * environment.length)),
      .range buffer (UInt32.ofNat (Wasi.environmentBlock environment).length)]
  | .argsSizesGet argc size => [.word argc, .word size]
  | _ => []

/-! ## What is kept -/

/-- At the addresses in `kept`, one memory is like another. -/
def Agree (kept : ℕ → Prop) (memory memory' : Bytes) : Prop := ∀ i, kept i → memory'[i]? = memory[i]?

/-- A pointer covers no address in `kept`. -/
class Avoids (kept : ℕ → Prop) (p : Pointer) : Prop where
  avoids : ∀ i, p.Covers i → ¬ kept i

/-- What a guest keeps to itself: its bytes at some addresses, in a VM with this environment. -/
structure Keepsake where
  addresses : ℕ → Prop
  memory : Bytes
  environment : List Pair

/-- A state has what is kept. -/
structure Keepsake.In (k : Keepsake) (h : HostState) : Prop where
  environment : h.abi.services.environment = k.environment
  memory : ∃ memory, h.memory = some memory ∧ Agree k.addresses k.memory memory

/-- What a state has of it, another has too. -/
def Keepsake.Stays (k : Keepsake) (h : HostState) (_ : List Event) (h' : HostState) : Prop :=
  k.In h → k.In h'

instance {k : Keepsake} : Chain k.Stays := ⟨fun _ h => h, fun first second h => second (first h)⟩

/-- A program that leaves what is kept. -/
abbrev Shelters {ε α : Type} (k : Keepsake) (m : Prog HostState Event ε α) : Prop := Along k.Stays m

variable {k : Keepsake} {ε α : Type} {m : Prog HostState Event ε α} {h h' : HostState} {memory memory' bytes : Bytes}
  {ptr : GuestPtr} {len : UInt32}

theorem Agree.trans {kept : ℕ → Prop} {memory'' : Bytes} (h : Agree kept memory memory')
    (h' : Agree kept memory' memory'') : Agree kept memory memory'' :=
  fun i hi => (h' i hi).trans (h i hi)

theorem Keepsake.Stays.of_eq {t : List Event} (hmemory : h'.memory = h.memory)
    (hservices : h'.abi.services = h.abi.services) : k.Stays h t h' := fun hin =>
  ⟨by rw [hservices]; exact hin.environment, by rw [hmemory]; exact hin.memory⟩

/-! ## Writes -/

/-- A write that changes nothing at the addresses in `kept`. -/
class WritesOutside (kept : ℕ → Prop) (write : Bytes → Except MemoryError Bytes) : Prop where
  outside : ∀ memory memory', write memory = .ok memory' → Agree kept memory memory'

theorem outside_of_writeRange {kept : ℕ → Prop} [havoids : Avoids kept (.range ptr len)]
    (hwrite : writeRange len memory ptr bytes = .ok memory') : Agree kept memory memory' := by
  intro i hi
  refine (changes_of_writeRange hwrite).2.2 i ?_
  have hnot : ¬ (ptr.toNat ≤ i ∧ i < ptr.toNat + len.toNat) := fun hcovers =>
    havoids.avoids i hcovers hi
  omega

instance {kept : ℕ → Prop} [havoids : Avoids kept (.word ptr)] {value : UInt32} :
    WritesOutside kept (GuestMemory.writeU32 · ptr value) := by
  refine ⟨fun memory memory' hwrite => ?_⟩
  have : Avoids kept (.range ptr 4) := ⟨havoids.avoids⟩
  have hrange : writeRange 4 memory ptr (LittleEndian.toBytes 4 value.toNat) = .ok memory' := hwrite
  exact outside_of_writeRange hrange

instance {kept : ℕ → Prop} [havoids : Avoids kept (.long ptr)] {value : UInt64} :
    WritesOutside kept (GuestMemory.writeU64 · ptr value) := by
  refine ⟨fun memory memory' hwrite => ?_⟩
  have : Avoids kept (.range ptr 8) := ⟨havoids.avoids⟩
  have hrange : writeRange 8 memory ptr (LittleEndian.toBytes 8 value.toNat) = .ok memory' := hwrite
  exact outside_of_writeRange hrange

instance {kept : ℕ → Prop} {slice : GuestSlice} [Avoids kept (.range slice.ptr slice.len)] :
    WritesOutside kept (GuestMemory.write · slice bytes) := by
  refine ⟨fun memory memory' hwrite => ?_⟩
  have hrange : writeRange slice.len memory slice.ptr bytes = .ok memory' := by
    unfold writeRange
    rw [new_eq_ok.2 ⟨rfl, rfl⟩]
    exact hwrite
  exact outside_of_writeRange hrange

theorem memory_setMemory_of_some (hmemory : h.memory = some memory) :
    (h.setMemory memory').memory = some memory' := by
  unfold HostState.setMemory
  rw [hmemory]
  rfl

/-- The memory that a write leaves. -/
theorem Keepsake.In.setMemory (hin : k.In h) (hmemory : h.memory = some memory)
    (hagree : Agree k.addresses memory memory') : k.In (h.setMemory memory') := by
  obtain ⟨before, hbefore, hkept⟩ := hin.memory
  cases hbefore.symm.trans hmemory
  exact ⟨hin.environment, memory', memory_setMemory_of_some hmemory, hkept.trans hagree⟩

/-! ## The services stay -/

/-- From the state before to the one after, the services are the same. -/
def SameServices (h : HostState) (_ : List Event) (h' : HostState) : Prop :=
  h'.abi.services = h.abi.services

instance : Chain SameServices := ⟨fun _ => rfl, fun first second => second.trans first⟩

abbrev KeepsVm (m : Prog HostState Event ε α) : Prop := Along SameServices m

/-- What leaves the memory and the services leaves what is kept. -/
instance (priority := low) [hm : KeepsMemory m] [hs : KeepsVm m] : Shelters k m :=
  ⟨fun h => .of_eq (hm.along h) (hs.along h)⟩

section Vm

variable {env : Env}

instance (priority := low) [hw : Within m] : KeepsVm m := ⟨fun h => (hw.along h).services⟩

instance {call : Invocation} {op : StreamOp} {answer : Answer α} :
    KeepsVm (askStream call op answer) := by
  have hasks : KeepsVm (Prog.emit fun _ => .stream call op : Body Unit) := .emit fun _ => rfl
  unfold askStream
  infer_instance

instance {path : List Bytes} : KeepsVm (property env path) := by
  unfold property
  split <;> infer_instance

instance {limits : Body Unit} [Quiet limits] {op : SharedOp} {reply : α → SharedReply}
    {record : ContextId → α → AbiState → AbiState} [KeepsServices record]
    {answer : Invocation → Answer (Except Status α)} :
    KeepsVm (askWithin limits op reply record answer) := by
  have hasks : ∀ asked : ServiceId × Invocation, KeepsVm
      (askShared asked.1 asked.2 op reply (record asked.2.context) (answer asked.2)) := by
    intro asked
    have hact : KeepsVm (Prog.act (fun h => .shared asked.1 asked.2 op
        ((answer asked.2).map fun a => a.map reply) h.abi)
        (·.mapAbi (recorded (record asked.2.context) (answer asked.2))) : Body Unit) :=
      .act fun _ => services_recorded
    unfold askShared
    infer_instance
  unfold askWithin
  infer_instance

instance {holds : AbiState → Bool} {op : SharedOp} {reply : α → SharedReply}
    {answer : Invocation → Answer (Except Status α)} :
    KeepsVm (askHeld holds op reply answer) := by
  unfold askHeld
  infer_instance

instance {kind : CalloutKind} {op : CalloutOp}
    {ask : Invocation → CalloutId → Answer (Except Status Unit)} :
    KeepsVm (openCallout kind op ask) := by
  have hasks : ∀ (call : Invocation) (callout : CalloutId)
      (record : Bool → CalloutTable → CalloutTable) (answer : Answer (Except Status Unit)),
      KeepsVm (askCallout call callout op record answer) := by
    intro call callout record answer
    have hact : KeepsVm (Prog.act
        (fun h => .callout h.abi.services.callouts call callout op answer)
        (·.mapAbi fun abi => { abi with callouts := record (accepts answer) abi.callouts }) :
        Body Unit) := .act fun _ => rfl
    unfold askCallout
    infer_instance
  unfold openCallout
  infer_instance

instance {level : LogLevel} {message : Bytes} :
    KeepsVm (writeLog env level message : Prog HostState Event ε Unit) := by
  have hemits : ∀ context, KeepsVm (Prog.emit fun _ => .logged context level message :
      Prog HostState Event ε Unit) := fun _ => .emit fun _ => rfl
  unfold writeLog
  infer_instance

/-- A line of the log leaves the memory. -/
instance {level : LogLevel} {message : Bytes} :
    KeepsMemory (writeLog env level message : Prog HostState Event ε Unit) := by
  unfold writeLog
  infer_instance

end Vm

/-! ## The writes of the host -/

section Writes

variable {write : Bytes → Except MemoryError Bytes}

theorem finds_hostSplit : Finds hostSplit (fun memory => h.memory = some memory) h := by
  unfold hostSplit
  exact .bind_read .orThrow

/-- The memory is replaced by what a write outside of what is kept makes of it. -/
theorem setMemory_stays [hwrite : WritesOutside k.addresses write] (hmemory : h.memory = some memory)
    (hok : write memory = .ok memory') :
    AlongFrom k.Stays (Prog.modify (·.setMemory memory') : Prog HostState Event ε Unit) h :=
  fun hin => hin.setMemory hmemory (hwrite.outside memory memory' hok)

instance [WritesOutside k.addresses write] : Shelters k (hostWrite write) := by
  refine .of_from fun h => ?_
  unfold hostWrite
  refine .bind_finds finds_hostSplit fun memory hmemory => .bind_ofExcept fun memory' hok => ?_
  cases hwrite : write memory with
  | error e =>
    rw [hwrite] at hok
    cases hok
  | ok found =>
    rw [hwrite] at hok
    cases hok
    exact setMemory_stays hmemory hwrite

instance [WritesOutside k.addresses write] : Shelters k (writeMemory write) := by
  refine .of_from fun h => ?_
  unfold writeMemory
  refine .bind_finds finds_hostSplit.mapErr fun memory hmemory => ?_
  exact .bind_finds finds_checked fun memory' hok => setMemory_stays hmemory hok

instance [WritesOutside k.addresses write] : Shelters k (Wasi.write write) := by
  refine .of_from fun h => ?_
  unfold Wasi.write
  refine .bind_finds finds_hostSplit.mapErr fun memory hmemory => ?_
  exact .bind_finds Wasi.finds_fault fun memory' hok => setMemory_stays hmemory hok

instance [Avoids k.addresses (.word ptr)] {value : UInt32} : Shelters k (writeU32 ptr value) := by
  unfold writeU32; infer_instance

instance [Avoids k.addresses (.long ptr)] {value : UInt64} : Shelters k (writeU64 ptr value) := by
  unfold writeU64; infer_instance

end Writes

/-! ## The allocator -/

/-- An allocator that leaves what is kept, and hands out none of it: an address of zero hands
    out nothing. -/
class AllocatorShelters (k : Keepsake) (run : I32 → Host I32) : Prop where
  shelters : ∀ size, Shelters k (run size)
  outside : ∀ (size : I32) (h : HostState) (address : I32),
    ((run size).run h).exit = .ok address → address ≠ 0 → Avoids k.addresses (.range address size)

section Allocator

variable {run : I32 → Host I32} [hrun : AllocatorShelters k run]

/-- A block of the allocator is none of what is kept. -/
theorem allocate_outside {size : UInt32} : Leaves (allocate run size)
    (fun address _ _ => Avoids k.addresses (.range address size)) (fun _ _ _ => True)
    (fun _ _ => True) h := by
  unfold allocate
  refine .bind_read (.bind_require (fun _ => ?_) fun _ => trivial)
  refine .bind_read (.bind_require (fun _ => ?_) fun _ => trivial)
  refine .bind_require (fun _ => ?_) fun _ => trivial
  refine .bind (M := fun answer _ _ => ∀ address, answer = .ok address → address ≠ 0 →
    Avoids k.addresses (.range address size)) (.attempt ?_) fun answer t h' houtside => ?_
  · have hblock := hrun.outside size h
    unfold Leaves
    cases hexit : ((run size).run h).exit with
    | ok address => exact fun _ heq => hblock _ (Except.ok.inj heq ▸ hexit)
    | err error => rintro _ ⟨⟩
    | panicked => trivial
  · rcases answer with error | address
    · exact .bind_modify trivial
    · exact .bind_require (fun hgiven => .pure (houtside address rfl hgiven)) fun _ => trivial

instance {size : UInt32} : Shelters k (allocate run size) := by
  have hallocates := hrun.shelters size
  have hpoison : Shelters k (Prog.modify HostState.poison : Host Unit) :=
    .modify fun _ => .of_eq rfl rfl
  unfold allocate
  refine .andThen fun _ => .andThen fun _ => .andThen fun _ => .andThen fun _ => ?_
  refine .andThen fun _ => .andThen fun answer => ?_
  cases answer <;> infer_instance

/-- **Bytes are copied** into a block that the guest hands out. -/
instance : Shelters k (writeToGuest run bytes) := by
  refine .of_from fun h => ?_
  unfold writeToGuest
  refine .bind_quiet fun _ => ?_
  dsimp only
  split
  · exact .of_along
  · refine .bind_leaves .of_along (allocate_outside (k := k)) fun address t h' houtside => ?_
    refine .bind_ofExcept fun slice hslice => ?_
    have havoids : Avoids k.addresses (.range slice.ptr slice.len) := by
      cases hnew : GuestSlice.new address (UInt32.ofNat bytes.length) with
      | error e =>
        rw [hnew] at hslice
        cases hslice
      | ok found =>
        rw [hnew] at hslice
        cases hslice
        obtain ⟨hptr, hlen⟩ := new_eq_ok.1 hnew
        rwa [hptr, hlen]
    exact .of_along

/-- A return pointer that the guest may decline covers nothing of what is kept. -/
class AvoidsWanted (kept : ℕ → Prop) (pointer : Option GuestPtr) : Prop where
  avoids : ∀ ptr, pointer = some ptr → Avoids kept (.word ptr)

instance {kept : ℕ → Prop} [Avoids kept (.word ptr)] : AvoidsWanted kept (some ptr) := by
  refine ⟨?_⟩
  rintro _ ⟨⟩
  infer_instance

theorem avoidsWanted_of_outputs {kept : ℕ → Prop} {pointer : I32}
    (houtputs : ∀ p ∈ wantedWord pointer, Avoids kept p) : AvoidsWanted kept (wanted pointer) := by
  refine ⟨fun ptr hptr => houtputs (.word ptr) ?_⟩
  unfold wantedWord
  rw [hptr]
  exact List.mem_singleton_self _

instance {pointer : Option GuestPtr} [hpointer : AvoidsWanted k.addresses pointer] :
    Shelters k (writeData run bytes pointer) := by
  cases pointer with
  | none =>
    unfold writeData
    infer_instance
  | some ptr =>
    have := hpointer.avoids ptr rfl
    unfold writeData
    infer_instance

instance {written : Option UInt32} : Quiet (writtenSize bytes written) := by
  cases written <;> unfold writtenSize <;> infer_instance

instance {returnData returnSize : Option GuestPtr} [AvoidsWanted k.addresses returnData]
    [hsize : AvoidsWanted k.addresses returnSize] :
    Shelters k (writeOptionalReturn run bytes returnData returnSize) := by
  unfold writeOptionalReturn
  cases returnSize with
  | none => infer_instance
  | some ptr =>
    have := hsize.avoids ptr rfl
    infer_instance

end Allocator

/-! ## The host functions -/

section Functions

variable {env : Env}

instance [AllocatorShelters k env.allocator] {returnData returnSize : GuestPtr}
    [Avoids k.addresses (.word returnData)] [Avoids k.addresses (.word returnSize)] :
    Shelters k (env.writeReturn bytes returnData returnSize) := by
  unfold Env.writeReturn writeReturn
  infer_instance

/-! ### Functions that write nothing -/

/-- A function that writes nothing in the memory, and keeps within the limits. -/
theorem shelters_of_keeps {body : Body Unit} [Within body] (h : KeepsMemory body) :
    Shelters k body := inferInstance

instance : Shelters k proxyDone :=
  shelters_of_keeps (by unfold proxyDone; infer_instance)

instance {a : I32} : Shelters k (proxySetEffectiveContext a) :=
  shelters_of_keeps (by unfold proxySetEffectiveContext; infer_instance)

instance {a : I32} : Shelters k (proxySetTickPeriodMilliseconds a) :=
  shelters_of_keeps (by unfold proxySetTickPeriodMilliseconds; infer_instance)

instance {a b c : I32} : Shelters k (proxyLog env a b c) :=
  shelters_of_keeps (by unfold proxyLog; infer_instance)

instance {a b c d e : I32} : Shelters k (proxySetBufferBytes env a b c d e) :=
  shelters_of_keeps (by unfold proxySetBufferBytes; infer_instance)

instance {a b c : I32} : Shelters k (proxySetHeaderMapPairs env a b c) :=
  shelters_of_keeps (by unfold proxySetHeaderMapPairs; infer_instance)

instance {change : Bytes → Bytes → Multimap.Write Bytes Bytes} {a b c d e : I32}
    [∀ mapType map key value, Within (changed mapType map (change key value))] :
    Shelters k (changeHeaderMapValue env change a b c d e) :=
  shelters_of_keeps (by unfold changeHeaderMapValue; infer_instance)

instance {a b c d e : I32} : Shelters k (proxyAddHeaderMapValue env a b c d e) := by
  unfold proxyAddHeaderMapValue; infer_instance

instance {a b c d e : I32} : Shelters k (proxyReplaceHeaderMapValue env a b c d e) := by
  unfold proxyReplaceHeaderMapValue; infer_instance

instance {a b c : I32} : Shelters k (proxyRemoveHeaderMapValue env a b c) :=
  shelters_of_keeps (by unfold proxyRemoveHeaderMapValue; infer_instance)

instance {a : I32} : Shelters k (proxyContinueStream env a) :=
  shelters_of_keeps (by unfold proxyContinueStream; infer_instance)

instance {a : I32} : Shelters k (proxyCloseStream env a) :=
  shelters_of_keeps (by unfold proxyCloseStream; infer_instance)

instance {a b c d : I32} : Shelters k (proxySetProperty env a b c d) :=
  shelters_of_keeps (by unfold proxySetProperty; infer_instance)

instance {a b c d e f g i : I32} : Shelters k (proxySendLocalResponse env a b c d e f g i) :=
  shelters_of_keeps (by unfold proxySendLocalResponse; infer_instance)

instance {a b c d e : I32} : Shelters k (proxySetSharedData env a b c d e) :=
  shelters_of_keeps (by unfold proxySetSharedData; infer_instance)

instance {a b c : I32} : Shelters k (proxyEnqueueSharedQueue env a b c) :=
  shelters_of_keeps (by unfold proxyEnqueueSharedQueue; infer_instance)

instance {a : I32} {value : I64} : Shelters k (proxyRecordMetric env a value) :=
  shelters_of_keeps (by unfold proxyRecordMetric; infer_instance)

instance {a : I32} {delta : I64} : Shelters k (proxyIncrementMetric env a delta) :=
  shelters_of_keeps (by unfold proxyIncrementMetric; infer_instance)

instance {a b c d : I32} : Shelters k (proxyGrpcSend env a b c d) := by
  refine shelters_of_keeps ?_
  unfold proxyGrpcSend
  refine .andThen fun message => .andThen fun memory => .andThen fun bytes => ?_
  refine .andThen fun found => ?_
  cases found <;> dsimp only <;> infer_instance

instance {a : I32} : Shelters k (proxyGrpcCancel env a) := by
  refine shelters_of_keeps ?_
  unfold proxyGrpcCancel
  refine .andThen fun memory => .andThen fun found => ?_
  cases found <;> infer_instance

instance {a : I32} : Shelters k (proxyGrpcClose env a) := by
  refine shelters_of_keeps ?_
  unfold proxyGrpcClose
  refine .andThen fun memory => .andThen fun found => ?_
  rcases found with ⟨callout, entry⟩ | _
  · dsimp only
    cases entry.kind <;> infer_instance
  · infer_instance

/-! ### Functions that write a word -/

section Word

variable [Avoids k.addresses (.word ptr)]

instance : Shelters k (proxyGetLogLevel ptr) := by unfold proxyGetLogLevel; infer_instance

instance {a : I32} : Shelters k (proxyGetHeaderMapSize env a ptr) := by
  unfold proxyGetHeaderMapSize; infer_instance

instance {a b c d e f g i j : I32} : Shelters k (proxyHttpCall env a b c d e f g i j ptr) := by
  unfold proxyHttpCall; infer_instance

instance {a b c d e f g i j l m : I32} : Shelters k (proxyGrpcCall env a b c d e f g i j l m ptr) := by
  unfold proxyGrpcCall; infer_instance

instance {a b c d e f g i : I32} : Shelters k (proxyGrpcStream env a b c d e f g i ptr) := by
  unfold proxyGrpcStream; infer_instance

instance {a b : I32} : Shelters k (proxyRegisterSharedQueue env a b ptr) := by
  unfold proxyRegisterSharedQueue; infer_instance

instance {a b c d : I32} : Shelters k (proxyResolveSharedQueue env a b c d ptr) := by
  unfold proxyResolveSharedQueue; infer_instance

instance {a b c : I32} : Shelters k (proxyDefineMetric env a b c ptr) := by
  unfold proxyDefineMetric; infer_instance

instance {a b : I32} [Avoids k.addresses (.word a)] : Shelters k (proxyGetBufferStatus env b a ptr) := by
  unfold proxyGetBufferStatus; infer_instance

end Word

/-! ### Functions that write a long -/

section Long

variable [Avoids k.addresses (.long ptr)]

instance : Shelters k (proxyGetCurrentTimeNanoseconds env ptr) := by
  unfold proxyGetCurrentTimeNanoseconds; infer_instance

instance {a : I32} : Shelters k (proxyGetMetric env a ptr) := by
  unfold proxyGetMetric; infer_instance

end Long

/-! ### Functions that write in a block of the allocator -/

section Block

variable [AllocatorShelters k env.allocator] {data size cas : I32}

section Return

variable [Avoids k.addresses (.word data)] [Avoids k.addresses (.word size)]

instance {a b c : I32} : Shelters k (proxyGetBufferBytes env a b c data size) := by
  unfold proxyGetBufferBytes; infer_instance

instance {a : I32} : Shelters k (proxyGetHeaderMapPairs env a data size) := by
  unfold proxyGetHeaderMapPairs; infer_instance

instance {a b c : I32} : Shelters k (proxyGetHeaderMapValue env a b c data size) := by
  unfold proxyGetHeaderMapValue; infer_instance

instance {code : I32} [Avoids k.addresses (.word code)] :
    Shelters k (proxyGetStatus env code data size) := by
  unfold proxyGetStatus; infer_instance

instance {a b : I32} [Avoids k.addresses (.word cas)] :
    Shelters k (proxyGetSharedData env a b data size cas) := by
  unfold proxyGetSharedData; infer_instance

instance {a : I32} : Shelters k (proxyDequeueSharedQueue env a data size) := by
  unfold proxyDequeueSharedQueue; infer_instance

instance {a b : I32} : Shelters k (proxyGetProperty env a b data size) := by
  unfold proxyGetProperty; infer_instance

end Return

instance {write : Bytes → Body Unit} [∀ bytes, Shelters k (write bytes)]
    {answer : Except Failure Bytes} : Shelters k (storeResults write answer) := by
  cases answer <;> unfold storeResults <;> infer_instance

instance {a b c d : I32} [AvoidsWanted k.addresses (wanted data)]
    [AvoidsWanted k.addresses (wanted size)] :
    Shelters k (proxyCallForeignFunction env a b c d data size) := by
  unfold proxyCallForeignFunction
  dsimp only
  infer_instance

end Block

/-! ### The functions of WASI -/

namespace Wasi

instance {a b c : I32} [Avoids k.addresses (.word ptr)] : Shelters k (fdWrite env a b c ptr) := by
  unfold fdWrite
  dsimp only
  infer_instance

instance {a : I32} [Avoids k.addresses (.long ptr)] : Shelters k (clockTimeGet env a ptr) := by
  unfold clockTimeGet; infer_instance

instance [Avoids k.addresses (.range ptr len)] : Shelters k (randomGet env ptr len) := by
  refine .of_from fun h => ?_
  unfold randomGet
  refine .bind_finds finds_fault fun slice hslice => ?_
  obtain ⟨rfl, rfl⟩ := new_eq_ok.1 hslice
  exact .of_along

instance {count size : I32} [Avoids k.addresses (.word count)] [Avoids k.addresses (.word size)] :
    Shelters k (environSizesGet count size) := by
  unfold environSizesGet
  dsimp only
  infer_instance

instance {count size : I32} [Avoids k.addresses (.word count)] [Avoids k.addresses (.word size)] :
    Shelters k (argsSizesGet count size) := by
  unfold argsSizesGet; infer_instance

/-- There are four bytes for each variable. -/
theorem finds_environPointers (environment : List Pair) (offset : ℕ) :
    Finds (environPointers environment offset)
      (fun pointers => pointers.length = 4 * environment.length) h := by
  induction environment generalizing offset with
  | nil => exact .pure rfl
  | cons entry environment ih =>
    unfold environPointers
    refine Finds.bind .quiet fun _ _ => Finds.bind .quiet fun _ _ => ?_
    refine (ih _).bind fun pointers hlength => .pure ?_
    rw [List.length_append, LittleEndian.length_toBytes, hlength, List.length_cons]
    omega

/-- A block is written in the range that it fits. -/
instance [Avoids k.addresses (.range ptr (UInt32.ofNat bytes.length))] :
    Shelters k (writeBlock ptr bytes) := by
  refine .of_from fun h => ?_
  unfold writeBlock
  refine .bind_quiet fun _ => .bind_finds finds_fault fun slice hslice => ?_
  obtain ⟨rfl, hlen⟩ := new_eq_ok.1 hslice
  have havoids : Avoids k.addresses (.range slice.ptr slice.len) := hlen ▸ inferInstance
  exact .of_along

instance {array buffer : I32}
    [harray : Avoids k.addresses (.range array (UInt32.ofNat (4 * k.environment.length)))]
    [hbuffer : Avoids k.addresses
      (.range buffer (UInt32.ofNat (environmentBlock k.environment).length))] :
    Shelters k (environGet array buffer) := by
  refine .of_from fun h hin => ?_
  have hvm : h.abi.services.environment = k.environment := hin.environment
  refine (show AlongFrom k.Stays (environGet array buffer) h from ?_) hin
  unfold environGet
  refine .bind_quiet fun _ => .bind_read ?_
  rw [hvm]
  refine .bind_finds (finds_environPointers k.environment buffer.toNat) fun pointers hlength => ?_
  have havoids : Avoids k.addresses (.range array (UInt32.ofNat pointers.length)) :=
    hlength ▸ harray
  exact .of_along

end Wasi

end Functions

/-! ## The table -/

section Table

instance {body : Body Unit} [Shelters k body] : Shelters k (complete body) := by
  unfold complete
  refine .andThen fun answer => ?_
  rcases answer with (status | ⟨error, unwinds⟩) | ok <;> infer_instance

instance {body : Wasi Unit} [Shelters k body] : Shelters k (errno body) := by
  unfold errno
  refine .andThen fun answer => ?_
  cases answer <;> infer_instance

/-- **A call of any host function leaves what is kept**, when none of its outputs is there. -/
theorem HostCall.shelters {env : Env} [AllocatorShelters k env.allocator] (function : HostCall)
    (houtputs : ∀ p ∈ function.outputs k.environment, Avoids k.addresses p) :
    Shelters k (function.run env) := by
  cases function <;> unfold HostCall.run <;>
    simp only [HostCall.outputs, List.forall_mem_cons] at houtputs
  case proxyGetStatus =>
    obtain ⟨hcode, hdata, hsize, -⟩ := houtputs
    infer_instance
  case proxyGetSharedData =>
    obtain ⟨hdata, hsize, hcas, -⟩ := houtputs
    infer_instance
  case proxyCallForeignFunction data size =>
    obtain ⟨hdata, hsize⟩ := List.forall_mem_append.1 houtputs
    have := avoidsWanted_of_outputs hdata
    have := avoidsWanted_of_outputs hsize
    infer_instance
  case proxyGetBufferBytes | proxyGetBufferStatus | proxyGetHeaderMapPairs | proxyGetHeaderMapValue |
      proxyDequeueSharedQueue | proxyGetProperty | environSizesGet | environGet | argsSizesGet =>
    obtain ⟨hfirst, hsecond, -⟩ := houtputs
    infer_instance
  case proxyGetLogLevel | proxyGetCurrentTimeNanoseconds | proxyGetHeaderMapSize | proxyHttpCall |
      proxyGrpcCall | proxyGrpcStream | proxyRegisterSharedQueue | proxyResolveSharedQueue |
      proxyDefineMetric | proxyGetMetric | fdWrite | clockTimeGet | randomGet =>
    obtain ⟨hout, -⟩ := houtputs
    infer_instance
  all_goals infer_instance

end Table

/-! ## Guest code -/

/-- Every value that code may return is as `Q` says. -/
def Code.Returns (Q : I32 → Prop) : Code → Prop
  | .ret _ value => Q value
  | .unwind _ => True
  | .call _ _ _ _ next => ∀ answer memory, (next answer memory).Returns Q

/-- Code that leaves what is kept: it does not write there, names none of it for the host to
    write at, and has an allocator that hands out none of it. -/
def Code.Spares (k : Keepsake) : Code → Prop
  | .ret memory _ => Agree k.addresses k.memory memory
  | .unwind _ => True
  | .call memory function _ allocator next =>
    Agree k.addresses k.memory memory ∧
      (∀ p ∈ function.outputs k.environment, Avoids k.addresses p) ∧
      (∀ size, (allocator size).Spares k ∧
        (allocator size).Returns fun address =>
          address ≠ 0 → Avoids k.addresses (.range address size)) ∧
      ∀ answer memory, Agree k.addresses k.memory memory → (next answer memory).Spares k

theorem Code.exec_returns {Q : I32 → Prop} {code : Code} (hreturns : code.Returns Q) :
    Leaves code.exec (fun value _ _ => Q value) (fun _ _ _ => True) (fun _ _ => True) h := by
  induction code generalizing h with
  | ret memory value => exact .bind_modify (.pure hreturns)
  | unwind fault => trivial
  | call memory function world allocator next ihAllocator ihNext =>
    unfold exec
    refine .bind_modify (.bind_emit (.bind (M := fun _ _ _ => True) ?_ fun answer _ h' _ => ?_))
    · exact .always (fun _ _ _ => trivial) (fun _ _ _ => trivial) fun _ _ => trivial
    · exact .bind_read (ihNext answer _ (hreturns answer _))

/-- The memory that the guest leaves. -/
theorem Keepsake.stays_setMemory (hagree : Agree k.addresses k.memory memory) :
    k.Stays h [] (h.setMemory memory) := by
  intro hin
  obtain ⟨before, hbefore, -⟩ := hin.memory
  exact ⟨hin.environment, memory, memory_setMemory_of_some hbefore, hagree⟩

/-- **Guest code that spares what is kept leaves it**, whatever it calls. -/
theorem Code.exec_shelters {code : Code} (hspares : code.Spares k) : Shelters k code.exec := by
  induction code with
  | ret memory value =>
    have hset : Shelters k (Prog.modify (·.setMemory memory) : Host Unit) :=
      .modify fun h => k.stays_setMemory hspares
    unfold exec
    infer_instance
  | unwind fault => unfold exec; infer_instance
  | call memory function world allocator next ihAllocator ihNext =>
    obtain ⟨hagree, houtputs, hallocator, hnext⟩ := hspares
    have hset : Shelters k (Prog.modify (·.setMemory memory) : Host Unit) :=
      .modify fun h => k.stays_setMemory hagree
    have hallocates : AllocatorShelters k fun size => (allocator size).exec := by
      refine ⟨fun size => ihAllocator size (hallocator size).1, fun size h address hexit => ?_⟩
      have hreturns := Code.exec_returns (h := h) (hallocator size).2
      unfold Leaves at hreturns
      rwa [hexit] at hreturns
    have hcall : Shelters k (function.run ⟨world, fun size => (allocator size).exec⟩) :=
      function.shelters houtputs
    have hcalled : Shelters k (Prog.emit fun h => Event.called h.abi : Host Unit) :=
      .emit fun _ => .of_eq rfl rfl
    unfold exec
    refine .andThen fun _ => .andThen fun _ => .andThen fun answer => .of_from fun h => ?_
    refine .bind_read fun hin => ?_
    obtain ⟨found, hfound, hkept⟩ := hin.memory
    have hrest := ihNext answer found (hnext answer found hkept)
    rw [hfound, Option.getD_some]
    exact hrest.along h hin

instance {code : Code} [hcode : Shelters k code.exec] : Shelters k (callTyped code) := by
  have hpoison : Shelters k (Prog.modify HostState.poison : Host Unit) :=
    .modify fun _ => .of_eq rfl rfl
  unfold callTyped
  refine .andThen fun _ => .andThen fun _ => .andThen fun answer => ?_
  cases answer <;> infer_instance

/-- **A call of guest code leaves what the guest spares**: whichever functions the guest calls,
    whatever the embedder answers and whichever way the call ends, the bytes at the addresses
    that the guest neither writes, names for a result nor hands out are the bytes from before. -/
theorem Code.call_leaves_spared {code : Code} {kept : ℕ → Prop} (hmemory : h.memory = some memory)
    (hspares : code.Spares ⟨kept, memory, h.abi.services.environment⟩) :
    ∃ memory', ((callTyped code).run h).state.memory = some memory' ∧ Agree kept memory memory' := by
  have hshelters := Code.exec_shelters hspares
  have hcall : Shelters ⟨kept, memory, h.abi.services.environment⟩ (callTyped code) := inferInstance
  have hin : Keepsake.In ⟨kept, memory, h.abi.services.environment⟩ h :=
    ⟨rfl, memory, hmemory, fun _ _ => rfl⟩
  exact (hcall.along h hin).memory

namespace Reading

/-- Eight bytes of the guest, two words for a result, the name of a property, and a block. -/
def before : Bytes :=
  [1, 2, 3, 4, 5, 6, 7, 8] ++ [0, 0, 0, 0] ++ [0, 0, 0, 0] ++
    [112, 108, 117, 103, 105, 110, 95, 118, 109, 95, 105, 100] ++ [0, 0, 0, 0]

/-- The block and its address and size are written. -/
def after : Bytes :=
  [1, 2, 3, 4, 5, 6, 7, 8] ++ [28, 0, 0, 0] ++ [2, 0, 0, 0] ++
    [112, 108, 117, 103, 105, 110, 95, 118, 109, 95, 105, 100] ++ [7, 9, 0, 0]

/-- A guest that reads the property `plugin_vm_id`. Its allocator has four bytes to give, and
    refuses what is larger. -/
def code : Code :=
  .call before (.proxyGetProperty 16 12 8 12) .refusing
    (fun size => .ret before (if size ≤ 4 then 28 else 0)) fun answer memory => .ret memory answer

/-- The state that it starts in. -/
def start : HostState :=
  { HostState.new ⟨.unlimited, none, none, none, 0⟩ (.new 0 ⟨[], .info, [7, 9], [], 1, 2⟩) with
    memory := some before
    allocator := true }

/-- The host writes the property, and the first eight bytes stay. -/
theorem code_leaves_spared :
    ((callTyped code).run start).state.memory = some after ∧ Agree (· < 8) before after := by
  have hwritten : ((callTyped code).run start).state.memory = some after := rfl
  have hspares : code.Spares ⟨(· < 8), before, start.abi.services.environment⟩ := by
    refine ⟨fun _ _ => rfl, ?_, fun size => ⟨fun _ _ => rfl, ?_⟩, fun _ _ hagree => hagree⟩
    · intro p hp
      refine ⟨fun i hcovers hkept => ?_⟩
      rcases List.mem_cons.1 hp with rfl | hp
      · exact absurd (hcovers.1.trans_lt hkept) (by decide)
      · rw [List.mem_singleton] at hp
        subst hp
        exact absurd (hcovers.1.trans_lt hkept) (by decide)
    · intro hgiven
      refine ⟨fun i hcovers hkept => ?_⟩
      by_cases hsize : size ≤ 4
      · rw [if_pos hsize] at hcovers
        exact absurd (hcovers.1.trans_lt hkept) (by decide)
      · exact hgiven (if_neg hsize)
  obtain ⟨memory', hmemory', hagree⟩ := Code.call_leaves_spared rfl hspares
  rw [hwritten, Option.some.injEq] at hmemory'
  exact ⟨hwritten, hmemory' ▸ hagree⟩

end Reading

end ProxyWasmHost
