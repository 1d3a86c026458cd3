/-
  Every function of the ABI checks its pointers before it asks anyone, stores the words of an
  accepted call, and writes nothing when it does not answer OK.
-/
import ProxyWasmHost.HostFunctions.Pointers
import ProxyWasmHost.Lib.Along

namespace ProxyWasmHost

open Prog GuestMemory

set_option synthInstance.maxSize 100000

/-! ## What may be left of the memory -/

/-- **The host wrote nothing** in a call that left the trace: the guest's memory is as it was, or
    as the guest's allocator left it, or has the zeros that tell of a refused foreign call. -/
inductive Unwritten (env : Env) : HostCall → List Event → Option Bytes → Option Bytes → Prop
  | same {function : HostCall} {t : List Event} {memory : Option Bytes} :
      Unwritten env function t memory memory
  | allocated {function : HostCall} {t : List Event} (size : I32) (h : HostState) :
      Unwritten env function t h.memory ((env.allocator size).run h).state.memory
  | zeros {name nameSize arguments argumentsSize data size : I32} {t : List Event}
      {call : Invocation} {request : ForeignCall} {status : Status} {memory stored memory' : Bytes}
      (asked : .stream call (.callForeignFunction request) ∈ t)
      (refused : env.world.stream.callForeignFunction call request = some (.error status))
      (hdata : storeWord memory (wanted data) 0 = .ok stored)
      (hsize : storeWord stored (wanted size) 0 = .ok memory') :
      Unwritten env (.proxyCallForeignFunction name nameSize arguments argumentsSize data size) t
        (some memory) (some memory')

theorem Unwritten.prepend {env : Env} {function : HostCall} {t u : List Event}
    {before after : Option Bytes} (hunwritten : Unwritten env function u before after) :
    Unwritten env function (t ++ u) before after := by
  cases hunwritten with
  | same => exact .same
  | allocated size h => exact .allocated size h
  | zeros asked refused hdata hsize =>
    exact .zeros (List.mem_append_right t asked) refused hdata hsize

theorem Unwritten.of_untouched {env : Env} {function : HostCall} {t : List Event}
    {h h' : HostState} {memory : Bytes} {size : ℕ} (hmemory : h.memory = some memory)
    (huntouched : Untouched env.allocator size h t h') :
    Unwritten env function t (some memory) h'.memory := by
  rw [← hmemory]
  rcases huntouched.memory_eq with hsame | hleft
  · exact hsame ▸ .same
  · exact hleft ▸ .allocated _ h

/-! ## The words that a call returns -/

/-- A number that a function stores for the guest. -/
inductive Word where
  | u32 (value : UInt32)
  | u64 (value : UInt64)

/-- Stores a word at a pointer. -/
def Word.store (memory : Bytes) (ptr : GuestPtr) : Word → Except MemoryError Bytes
  | .u32 value => GuestMemory.writeU32 memory ptr value
  | .u64 value => GuestMemory.writeU64 memory ptr value

/-- The body that stores a word. -/
def Word.put (ptr : GuestPtr) : Word → Body Unit
  | .u32 value => ProxyWasmHost.writeU32 ptr value
  | .u64 value => ProxyWasmHost.writeU64 ptr value

/-- A word of this width is read at the pointer. -/
def Word.Reads (memory : Bytes) (ptr : GuestPtr) : Word → Prop
  | .u32 _ => ∃ found, readU32 memory ptr = .ok found
  | .u64 _ => ∃ found, readU64 memory ptr = .ok found

theorem Word.Reads.stores {memory : Bytes} {ptr : GuestPtr} {w : Word} (h : w.Reads memory ptr) :
    ∃ memory', w.store memory ptr = .ok memory' := by
  cases w with
  | u32 value => exact writeU32_of_readU32 h.choose_spec le_rfl value
  | u64 value => exact writeU64_of_readU64 h.choose_spec le_rfl value

theorem Word.put_run {h : HostState} {memory memory' : Bytes} {ptr : GuestPtr} {w : Word}
    (hmemory : h.memory = some memory) (hstore : w.store memory ptr = .ok memory') :
    (w.put ptr).run h = ⟨.ok (), h.setMemory memory', []⟩ := by
  cases w <;> exact writeMemory_run hmemory hstore

/-- **Words are stored**: the memory after is the one before with each word at its pointer, in
    the order they are given. -/
def Stored (words : List (GuestPtr × Word)) (before after : Option Bytes) : Prop :=
  ∃ memory memory', before = some memory ∧ after = some memory' ∧
    words.foldlM (fun memory w => w.2.store memory w.1) memory = .ok memory'

/-- The word of a reply that is an identifier or a number. -/
def SharedReply.word : SharedReply → Option Word
  | .queue id => some (.u32 id.wire)
  | .metric id => some (.u32 id.wire)
  | .number n => some (.u64 n)
  | _ => none

/-- The word that the embedder gave the guest when it accepted what an event asks. -/
def Event.word : Event → Option Word
  | .shared _ _ _ (some (.ok reply)) _ => reply.word
  | .callout _ _ id _ (some (.ok ())) => some (.u32 id.wire)
  | _ => none

/-- Where a function stores the identifier or the number that the embedder answers. -/
def HostCall.returnsWord : HostCall → Option GuestPtr
  | .proxyHttpCall _ _ _ _ _ _ _ _ _ callId => some callId
  | .proxyGrpcCall _ _ _ _ _ _ _ _ _ _ _ callId => some callId
  | .proxyGrpcStream _ _ _ _ _ _ _ _ streamId => some streamId
  | .proxyRegisterSharedQueue _ _ queueId => some queueId
  | .proxyResolveSharedQueue _ _ _ _ queueId => some queueId
  | .proxyDefineMetric _ _ _ metricId => some metricId
  | .proxyGetMetric _ value => some value
  | _ => none

/-- What a body leaves once the pointers are checked: a failure wrote nothing, and a word that
    the embedder gave is stored. -/
structure Acts (env : Env) (function : HostCall) (memory : Option Bytes)
    (r : Res HostState Event Failure Unit) : Prop where
  unwritten : r.exit ≠ .ok () → Unwritten env function r.trace memory r.state.memory
  stored : ∀ ptr, function.returnsWord = some ptr → ∀ e ∈ r.trace, ∀ w, e.word = some w →
    r.exit = .ok () ∧ Stored [(ptr, w)] memory r.state.memory

/-! ## What leaves the memory alone -/

/-- From the state before to the one after, the memory is the same. -/
def SameMemory (h : HostState) (_ : List Event) (h' : HostState) : Prop := h'.memory = h.memory

instance : Chain SameMemory := ⟨fun _ => rfl, fun first second => second.trans first⟩

instance {name : Bytes} {held : SharedName} : Quiet (withinNames name held) := by
  unfold withinNames; infer_instance

abbrev KeepsMemory {ε α : Type} (m : Prog HostState Event ε α) : Prop := Along SameMemory m

section Keeps

variable {ε α : Type} {env : Env}

instance {e : HostState → Event} : KeepsMemory (Prog.emit e : Prog HostState Event ε Unit) :=
  .emit fun _ => rfl

instance {e : HostState → Event} {f : AbiState → AbiState} :
    KeepsMemory (Prog.act e (·.mapAbi f) : Prog HostState Event ε Unit) :=
  .act fun _ => rfl

instance {f : AbiState → AbiState} :
    KeepsMemory (Prog.modify (·.mapAbi f) : Prog HostState Event ε Unit) :=
  .modify fun _ => rfl

instance {call : Invocation} {op : StreamOp} {answer : Answer α} :
    KeepsMemory (askStream call op answer) := by
  unfold askStream; infer_instance

instance {mapType : MapType} {map : HeaderMap} {write : Multimap.Write Bytes Bytes} :
    KeepsMemory (changed mapType map write) := by
  unfold changed; infer_instance

instance : KeepsMemory settle := by unfold settle; infer_instance

instance {absent : Status} : KeepsMemory (withShared absent) := by
  unfold withShared; infer_instance

instance {shared : ServiceId} {call : Invocation} {op : SharedOp} {reply : α → SharedReply}
    {record : α → AbiState → AbiState} {answer : Answer (Except Status α)} :
    KeepsMemory (askShared shared call op reply record answer) := by
  unfold askShared; infer_instance

instance {limits : Body Unit} [Quiet limits] {op : SharedOp} {reply : α → SharedReply}
    {record : ContextId → α → AbiState → AbiState}
    {answer : Invocation → Answer (Except Status α)} :
    KeepsMemory (askWithin limits op reply record answer) := by
  unfold askWithin; infer_instance

instance {holds : AbiState → Bool} {op : SharedOp} {reply : α → SharedReply}
    {answer : Invocation → Answer (Except Status α)} :
    KeepsMemory (askHeld holds op reply answer) := by
  unfold askHeld; infer_instance

instance {call : Invocation} {id : CalloutId} {op : CalloutOp}
    {record : Bool → CalloutTable → CalloutTable} {answer : Answer (Except Status Unit)} :
    KeepsMemory (askCallout call id op record answer) := by
  unfold askCallout; infer_instance

instance {kind : CalloutKind} {op : CalloutOp}
    {ask : Invocation → CalloutId → Answer (Except Status Unit)} :
    KeepsMemory (openCallout kind op ask) := by
  unfold openCallout; infer_instance

instance {mapType : MapType} {access : Access} : KeepsMemory (headerMap env mapType access) := by
  unfold headerMap
  split <;> infer_instance

instance {buffer : BufferType} : KeepsMemory (readBuffer env buffer) := by
  unfold readBuffer
  split <;> infer_instance

instance {buffer : BufferType} : KeepsMemory (writeBuffer env buffer) := by
  unfold writeBuffer
  split <;> infer_instance

instance {path : List Bytes} : KeepsMemory (property env path) := by
  unfold property
  split <;> infer_instance

instance {path : List Bytes} {value : Bytes} : KeepsMemory (setProperty env path value) := by
  unfold setProperty
  split <;> infer_instance

instance {id : CalloutId} : KeepsMemory (endCallout env id) := by
  unfold endCallout
  refine .andThen fun caller => ?_
  cases caller <;> infer_instance

instance {level : LogLevel} {message : Bytes} :
    KeepsMemory (writeLog env level message : Body Unit) := by
  unfold writeLog; infer_instance

end Keeps

/-! ## What a body leaves once its pointers are checked -/

/-- The word an event gives is the one that `ask` returns. -/
def Tells {α : Type} (ask : Body α) (word : α → Word) (h : HostState) : Prop :=
  ∀ e ∈ (ask.run h).trace, ∀ w, e.word = some w → ∃ a, (ask.run h).exit = .ok a ∧ w = word a

section Acts

variable {α : Type} {env : Env} {function : HostCall} {h : HostState} {memory : Bytes}
  {before : Option Bytes} {ptr : GuestPtr} {ask : Body α} {f : α → Body Unit}

theorem stored_single {w : Word} {memory' : Bytes} (hstore : w.store memory ptr = .ok memory') :
    [(ptr, w)].foldlM (fun memory w => w.2.store memory w.1) memory = .ok memory' := by
  rw [List.foldlM_cons, hstore]
  rfl

theorem memory_of_keeps [hask : KeepsMemory ask] : (ask.run h).state.memory = h.memory :=
  hask.along h

namespace Acts

/-- A body that leaves the memory alone. -/
theorem keeps {body : Body Unit} [KeepsMemory body] (hnone : function.returnsWord = none)
    (hmemory : h.memory = before) : Acts env function before (body.run h) where
  unwritten _ := by rw [memory_of_keeps, hmemory]; exact .same
  stored ptr hptr := by rw [hnone] at hptr; cases hptr

/-- What comes after a step that leaves the memory alone. -/
theorem bind [KeepsMemory ask] (hnone : function.returnsWord = none) (hmemory : h.memory = before)
    (hf : ∀ a h', h'.memory = before → Acts env function before ((f a).run h')) :
    Acts env function before ((ask >>= f).run h) := by
  have hkept : (ask.run h).state.memory = before := memory_of_keeps.trans hmemory
  refine ⟨fun hexit => ?_, fun ptr hptr => by rw [hnone] at hptr; cases hptr⟩
  cases hrun : ask.run h with
  | mk exit h' t =>
    rw [hrun] at hkept
    cases exit with
    | ok a =>
      rw [bind_of_ok hrun] at hexit ⊢
      exact ((hf a h' hkept).unwritten hexit).prepend
    | err e =>
      rw [bind_of_err hrun]
      exact hkept ▸ .same
    | panicked =>
      rw [bind_of_panicked hrun]
      exact hkept ▸ .same

/-- The word of an accepted call is stored. -/
theorem stores [KeepsMemory ask] {word : α → Word} (hreturns : function.returnsWord = some ptr)
    (htells : Tells ask word h) (hmemory : h.memory = some memory)
    (hf : ∀ a h', h'.memory = some memory → ∃ memory', (word a).store memory ptr = .ok memory' ∧
      (f a).run h' = ⟨.ok (), h'.setMemory memory', []⟩) :
    Acts env function (some memory) ((ask >>= f).run h) := by
  have hmemory : (ask.run h).state.memory = some memory := memory_of_keeps.trans hmemory
  unfold Tells at htells
  cases hrun : ask.run h with
  | mk exit h' t =>
    rw [hrun] at hmemory htells
    cases exit with
    | ok a =>
      obtain ⟨memory', hstore, hwrite⟩ := hf a h' hmemory
      rw [bind_of_ok hrun, hwrite]
      refine ⟨fun hnot => absurd rfl hnot, fun ptr' hptr e he w hw => ⟨rfl, ?_⟩⟩
      rw [hreturns] at hptr
      cases hptr
      rw [List.append_nil] at he
      obtain ⟨a', hexit, rfl⟩ := htells e he w hw
      cases hexit
      exact ⟨memory, memory', rfl, memory_setMemory hmemory memory', stored_single hstore⟩
    | err e =>
      rw [bind_of_err hrun]
      refine ⟨fun _ => hmemory ▸ .same, fun ptr' _ e he w hw => ?_⟩
      obtain ⟨a, hexit, -⟩ := htells e he w hw
      cases hexit
    | panicked =>
      rw [bind_of_panicked hrun]
      refine ⟨fun _ => hmemory ▸ .same, fun ptr' _ e he w hw => ?_⟩
      obtain ⟨a, hexit, -⟩ := htells e he w hw
      cases hexit

/-- A word is stored where one of its width is read. -/
theorem storesWord [KeepsMemory ask] {word : α → Word} (hreturns : function.returnsWord = some ptr)
    (htells : Tells ask word h) (hmemory : h.memory = some memory)
    (hreads : ∀ a, (word a).Reads memory ptr) :
    Acts env function (some memory) ((ask >>= fun a => (word a).put ptr).run h) := by
  refine stores hreturns htells hmemory fun a h' hsame => ?_
  obtain ⟨memory', hstore⟩ := (hreads a).stores
  exact ⟨memory', hstore, Word.put_run hsame hstore⟩

/-- A return leaves a memory that is no shorter, or wrote nothing. -/
theorem return_leaves {bytes : Bytes} {returnData returnSize : Option GuestPtr}
    (hgrows : Grows env.allocator) (hmemory : h.memory = some memory) :
    Leaves (Prog.mapErr Failure.ofError (writeOptionalReturn env.allocator bytes returnData
        returnSize))
      (fun _ _ h' => ∃ memory', h'.memory = some memory' ∧ memory.length ≤ memory'.length)
      (fun _ t h' => Unwritten env function t (some memory) h'.memory)
      (fun t h' => Unwritten env function t (some memory) h'.memory) h := by
  have hnone : ∀ t h', Untouched env.allocator bytes.length h t h' →
      Unwritten env function t (some memory) h'.memory := fun _ _ => .of_untouched hmemory
  refine .mapErr ((writeOptionalReturn_leaves env.allocator bytes returnData returnSize hgrows
    h).mono ?_ (fun _ => hnone) hnone)
  rintro ⟨⟩ t h' ⟨address, h₁, memory₁, memory', halloc, hmemory₁, rfl, -, hreturned⟩
  refine ⟨memory', memory_setMemory hmemory₁ memory', ?_⟩
  obtain ⟨memory₂, hmemory₂, hgrown⟩ := halloc.grown hgrows hmemory
  rw [hmemory₁] at hmemory₂
  cases hmemory₂
  rw [hreturned.length_eq]
  exact hgrown

/-- What a body leaves when it fails. -/
theorem of_leaves {body : Body Unit} (hnone : function.returnsWord = none)
    (hleaves : Leaves body (fun _ _ _ => True)
      (fun _ t h' => Unwritten env function t before h'.memory)
      (fun t h' => Unwritten env function t before h'.memory) h) :
    Acts env function before (body.run h) := by
  refine ⟨fun hexit => ?_, fun ptr hptr => by rw [hnone] at hptr; cases hptr⟩
  unfold Leaves at hleaves
  cases hres : (body.run h).exit with
  | ok u => exact absurd hres hexit
  | err e => rw [hres] at hleaves; exact hleaves
  | panicked => rw [hres] at hleaves; exact hleaves

/-- A return. -/
theorem returns {bytes : Bytes} {returnData returnSize : GuestPtr} (hgrows : Grows env.allocator)
    (hnone : function.returnsWord = none) (hmemory : h.memory = some memory) :
    Acts env function (some memory) ((env.writeReturn bytes returnData returnSize).run h) :=
  of_leaves hnone ((return_leaves hgrows hmemory).mono (fun _ _ _ _ => trivial)
    (fun _ _ _ h => h) fun _ _ h => h)

/-- A return, and a word that is stored after it. -/
theorem returnsThen {bytes : Bytes} {returnData returnSize : GuestPtr} {value found : UInt32}
    (hgrows : Grows env.allocator) (hnone : function.returnsWord = none)
    (hmemory : h.memory = some memory) (hptr : readU32 memory ptr = .ok found) :
    Acts env function (some memory) ((do
      env.writeReturn bytes returnData returnSize
      ProxyWasmHost.writeU32 ptr value).run h) := by
  refine of_leaves hnone (.bind (return_leaves hgrows hmemory) ?_)
  rintro u t h' ⟨memory', hmemory', hgrown⟩
  obtain ⟨memory₁, hwrite⟩ := writeU32_of_readU32 hptr hgrown value
  unfold Leaves
  rw [writeU32_run hmemory' hwrite]
  trivial

/-- A word that is stored. -/
theorem word {value found : UInt32} (hnone : function.returnsWord = none)
    (hmemory : h.memory = some memory) (hptr : readU32 memory ptr = .ok found) :
    Acts env function before ((ProxyWasmHost.writeU32 ptr value).run h) := by
  obtain ⟨memory', hwrite⟩ := writeU32_of_readU32 hptr le_rfl value
  refine of_leaves hnone ?_
  unfold Leaves
  rw [writeU32_run hmemory hwrite]
  trivial

end Acts

end Acts

/-! ## What the embedder gives -/

section Asks

variable {α : Type} {h : HostState}

/-- No event gives a word. -/
def Wordless (t : List Event) : Prop := ∀ e ∈ t, e.word = none

theorem Wordless.nil : Wordless [] := by rintro e ⟨⟩

theorem Wordless.append {t u : List Event} (ht : Wordless t) (hu : Wordless u) :
    Wordless (t ++ u) := fun e he => (List.mem_append.1 he).elim (ht e) (hu e)

theorem Wordless.single {e : Event} (he : e.word = none) : Wordless [e] := by
  intro e' he'
  rw [List.mem_singleton.1 he']
  exact he

theorem Tells.of_leaves {ask : Body α} {word : α → Word}
    (hask : Leaves ask (fun a t _ => ∀ e ∈ t, ∀ w, e.word = some w → w = word a)
      (fun _ t _ => Wordless t) (fun t _ => Wordless t) h) : Tells ask word h := by
  unfold Leaves at hask
  intro e he w hw
  cases hexit : (ask.run h).exit with
  | ok a =>
    rw [hexit] at hask
    exact ⟨a, rfl, hask e he w hw⟩
  | err e' =>
    rw [hexit] at hask
    rw [hask e he] at hw
    cases hw
  | panicked =>
    rw [hexit] at hask
    rw [hask e he] at hw
    cases hw

/-- A refusal is never a value. -/
theorem fromEmbedder_error (status : Status) :
    ∃ failure, (fromEmbedder (.error status) : Body α) = fail failure := by
  cases status <;> exact ⟨_, rfl⟩

theorem settle_wordless (h : HostState) :
    Leaves settle (fun _ t _ => Wordless t) (fun _ t _ => Wordless t) (fun t _ => Wordless t) h :=
  Wordless.single rfl

theorem withShared_wordless (absent : Status) (h : HostState) :
    Leaves (withShared absent) (fun _ t _ => Wordless t) (fun _ t _ => Wordless t)
      (fun t _ => Wordless t) h := by
  unfold withShared
  refine .bind_read (.bind (settle_wordless h) fun _ t h' ht => ?_)
  refine .bind_finds .quiet (fun c _ => .bind_read (.pure ?_)) (fun _ => ?_) ?_ <;>
    rwa [List.append_nil]

theorem askShared_leaves (shared : ServiceId) (call : Invocation) (op : SharedOp)
    (reply : α → SharedReply) (record : α → AbiState → AbiState)
    (answer : Answer (Except Status α)) (h : HostState) :
    Leaves (askShared shared call op reply record answer)
      (fun found t _ => answer = some found ∧
        t = [.shared shared call op (some (found.map reply)) h.abi])
      (fun _ _ _ => False) (fun t _ => Wordless t) h := by
  unfold askShared
  refine .bind_act ?_
  cases answer with
  | some found => exact ⟨rfl, rfl⟩
  | none => exact Wordless.single rfl

/-- **The shared services** give the identifier or the number of their reply. -/
theorem askWithin_leaves {limits : Body Unit} [Quiet limits] {op : SharedOp}
    {reply : α → SharedReply} {record : ContextId → α → AbiState → AbiState}
    {answer : Invocation → Answer (Except Status α)} {word : α → Word}
    (hreply : ∀ a, (reply a).word = some (word a)) (h : HostState) :
    Leaves (askWithin limits op reply record answer)
      (fun a t _ => ∀ e ∈ t, ∀ w, e.word = some w → w = word a)
      (fun _ t _ => Wordless t) (fun t _ => Wordless t) h := by
  unfold askWithin
  refine .bind (withShared_wordless .notFound h) fun asked t h₁ ht => ?_
  refine .bind_finds .quiet (fun _ _ => ?_) (fun _ => by rwa [List.append_nil])
    (by rwa [List.append_nil])
  refine .bind ((askShared_leaves asked.1 asked.2 op reply (record asked.2.context) _ h₁).mono
    (fun _ _ _ h => h) (fun _ _ _ => False.elim) fun u _ hu => ht.append hu) ?_
  rintro found u h₂ ⟨-, rfl⟩
  cases found with
  | ok a =>
    refine .pure fun e he w hw => ?_
    rw [List.append_nil] at he
    rcases List.mem_append.1 he with he | he
    · rw [ht e he] at hw
      cases hw
    · cases List.mem_singleton.1 he
      exact Option.some.inj (hw.symm.trans (hreply a))
  | error status =>
    obtain ⟨failure, hfail⟩ := fromEmbedder_error status
    rw [hfail]
    refine .throw ?_
    rw [List.append_nil]
    exact ht.append (.single rfl)

theorem askHeld_leaves {holds : AbiState → Bool} {op : SharedOp} {reply : α → SharedReply}
    {answer : Invocation → Answer (Except Status α)} {word : α → Word}
    (hreply : ∀ a, (reply a).word = some (word a)) (h : HostState) :
    Leaves (askHeld holds op reply answer)
      (fun a t _ => ∀ e ∈ t, ∀ w, e.word = some w → w = word a)
      (fun _ t _ => Wordless t) (fun t _ => Wordless t) h := by
  unfold askHeld
  refine .bind (settle_wordless h) fun _ t h₁ ht => .bind_read ?_
  refine .bind_finds .quiet (fun _ _ => ?_) (fun _ => by rwa [List.append_nil])
    (by rwa [List.append_nil])
  refine (askWithin_leaves hreply h₁).mono ?_ (fun _ _ _ hu => ht.append hu)
    fun _ _ hu => ht.append hu
  intro a u _ hu e he w hw
  rcases List.mem_append.1 he with he | he
  · rw [ht e he] at hw
    cases hw
  · exact hu e he w hw

/-- **The callout service** gives the identifier it was asked about. -/
theorem openCallout_leaves (kind : CalloutKind) (op : CalloutOp)
    (ask : Invocation → CalloutId → Answer (Except Status Unit)) (h : HostState) :
    Leaves (openCallout kind op ask)
      (fun id t _ => ∀ e ∈ t, ∀ w, e.word = some w → w = .u32 id.wire)
      (fun _ t _ => Wordless t) (fun t _ => Wordless t) h := by
  unfold openCallout
  refine .bind_finds .quiet (fun caller _ => .bind_read ?_) (fun _ => .nil) .nil
  refine .bind_finds .quiet (fun root _ => .bind_read ?_) (fun _ => .nil) .nil
  refine .bind_finds .quiet (fun _ _ => .bind_read (.bind_read ?_)) (fun _ => .nil) .nil
  refine .bind_finds .quiet (fun _ _ => .bind_read (.bind_read ?_)) (fun _ => .nil) .nil
  refine .bind_finds .quiet (fun reserved _ => ?_) (fun _ => .nil) .nil
  obtain ⟨id, reserved⟩ := reserved
  dsimp only
  generalize h.abi.invocation caller = call
  generalize ask call id = answer
  unfold askCallout
  rw [bind_assoc]
  refine .bind_act ?_
  rcases answer with _ | status | ⟨⟩
  · exact .single rfl
  · exact .single rfl
  · intro e he w hw
    cases List.mem_singleton.1 he
    cases hw
    rfl

/-- The identifier of a callout is stored where a word was checked. -/
theorem Acts.opensCallout {env : Env} {function : HostCall} {memory : Bytes} {ptr : GuestPtr}
    {u : Unit} {kind : CalloutKind} {op : CalloutOp}
    {ask : Invocation → CalloutId → Answer (Except Status Unit)}
    (hreturns : function.returnsWord = some ptr) (hmemory : h.memory = some memory)
    (hptr : (checkWord memory ptr).run h = ⟨.ok u, h, []⟩) :
    Acts env function (some memory)
      ((openCallout kind op ask >>= fun id => ProxyWasmHost.writeU32 ptr id.wire).run h) := by
  have hreads := readU32_of_checkWord hptr
  exact .storesWord hreturns (.of_leaves (openCallout_leaves kind op ask h)) hmemory fun _ => hreads

/-- The identifier that a shared service gives is stored where a word was checked. -/
theorem Acts.asksWithin {env : Env} {function : HostCall} {memory : Bytes} {ptr : GuestPtr}
    {u : Unit} {limits : Body Unit} [Quiet limits] {op : SharedOp} {reply : α → SharedReply}
    {record : ContextId → α → AbiState → AbiState}
    {answer : Invocation → Answer (Except Status α)} {value : α → UInt32}
    (hreturns : function.returnsWord = some ptr)
    (hreply : ∀ a, (reply a).word = some (.u32 (value a))) (hmemory : h.memory = some memory)
    (hptr : (checkWord memory ptr).run h = ⟨.ok u, h, []⟩) :
    Acts env function (some memory) ((askWithin limits op reply record answer >>= fun a =>
      ProxyWasmHost.writeU32 ptr (value a)).run h) := by
  have hreads := readU32_of_checkWord hptr
  exact .storesWord hreturns (.of_leaves (askWithin_leaves hreply h)) hmemory fun _ => hreads

end Asks

/-! ## The functions of the ABI -/

section Functions

variable {env : Env} {h : HostState}

/-- **A body that checks first**, and acts as it may once its pointers are valid. -/
abbrev Disciplined (env : Env) (h : HostState) (function : HostCall) (body : Body Unit) : Prop :=
  ChecksFirst function.pointers (Acts env function h.memory) h body

/-- The pointers are valid, and the body acts. -/
theorem ChecksFirst.goes {function : HostCall} {body : Body Unit} {memory : Bytes}
    (hmemory : h.memory = some memory)
    (hvalid : function.pointers.Forall (·.Valid (some memory)))
    (hacts : Acts env function (some memory) (body.run h)) : Disciplined env h function body :=
  .acts hmemory hvalid (hmemory ▸ hacts)

/-- A body without pointers, that leaves the memory alone. -/
theorem ChecksFirst.plain {function : HostCall} {body : Body Unit} [KeepsMemory body]
    (hpointers : function.pointers = []) (hnone : function.returnsWord = none) :
    Disciplined env h function body := by
  refine .inr ⟨fun p hp => ?_, .keeps hnone rfl⟩
  rw [hpointers] at hp
  cases hp

theorem proxyDone_checks : Disciplined env h .proxyDone proxyDone := by
  have hkeeps : KeepsMemory proxyDone := by unfold proxyDone; infer_instance
  exact .plain rfl rfl

theorem proxySetEffectiveContext_checks (a : I32) :
    Disciplined env h (.proxySetEffectiveContext a) (proxySetEffectiveContext a) := by
  have hkeeps : KeepsMemory (proxySetEffectiveContext a) := by
    unfold proxySetEffectiveContext; infer_instance
  exact .plain rfl rfl

theorem proxySetTickPeriodMilliseconds_checks (a : I32) :
    Disciplined env h (.proxySetTickPeriodMilliseconds a) (proxySetTickPeriodMilliseconds a) := by
  have hkeeps : KeepsMemory (proxySetTickPeriodMilliseconds a) := by
    unfold proxySetTickPeriodMilliseconds; infer_instance
  exact .plain rfl rfl

theorem proxyLog_checks (a b c : I32) :
    Disciplined env h (.proxyLog a b c) (proxyLog env a b c) := by
  refine .look fun level _ => .look fun range hslice => .look fun memory hsplit =>
    .look fun message hread => .look fun max _ => ?_
  exact .goes (memory_of_split hsplit) (valid_range hslice hread)
    (.keeps rfl (memory_of_split hsplit))

/-- A write that is checked by itself. -/
theorem ChecksFirst.writes {function : HostCall} {write : Bytes → Except MemoryError Bytes}
    (hpointers : ∀ memory memory', write memory = .ok memory' →
      function.pointers.Forall (·.Valid (some memory)))
    (hnone : function.returnsWord = none) : Disciplined env h function (writeMemory write) := by
  cases hmemory : h.memory with
  | none =>
    refine .inl (.bind fun memory hsplit => ?_)
    cases hmemory.symm.trans (memory_of_split hsplit)
  | some memory =>
    cases hwrite : write memory with
    | error e =>
      refine .inl (.bind fun memory' hsplit => ?_)
      cases hmemory.symm.trans (memory_of_split hsplit)
      rw [hwrite]
      exact .andThen .of_fail
    | ok memory' =>
      refine .goes hmemory (hpointers memory memory' hwrite) (.of_leaves hnone ?_)
      unfold Leaves
      rw [writeMemory_run hmemory hwrite]
      trivial

theorem readU32_of_writable {memory memory' : Bytes} {ptr : GuestPtr} {value : UInt32}
    (hwrite : GuestMemory.writeU32 memory ptr value = .ok memory') :
    ∃ found, readU32 memory ptr = .ok found := by
  obtain ⟨-, hfits, hinside, -⟩ := writeRange_ok.1 (writeU32_eq memory ptr value ▸ hwrite)
  exact ⟨_, readU32_ok.2 ⟨_, readRange_ok.2 ⟨hfits, hinside, rfl⟩, rfl⟩⟩

theorem proxyGetLogLevel_checks (a : I32) :
    Disciplined env h (.proxyGetLogLevel a) (proxyGetLogLevel a) :=
  .look fun memory _ => .look fun level _ => .writes
    (fun memory memory' hwrite => by
      obtain ⟨found, hread⟩ := readU32_of_writable hwrite
      exact ⟨memory, found, rfl, hread⟩) rfl

theorem proxySetBufferBytes_checks (a b c d e : I32) :
    Disciplined env h (.proxySetBufferBytes a b c d e) (proxySetBufferBytes env a b c d e) := by
  refine .look fun bufferType _ => .look fun range hslice => .look fun memory hsplit =>
    .look fun value hread => ?_
  exact .goes (memory_of_split hsplit) (valid_range hslice hread)
    (.keeps rfl (memory_of_split hsplit))

theorem proxyGetBufferBytes_checks (hgrows : Grows env.allocator) (a b c d e : I32) :
    Disciplined env h (.proxyGetBufferBytes a b c d e) (proxyGetBufferBytes env a b c d e) := by
  refine .look fun bufferType _ => .look fun memory hsplit => .look fun _ hdata =>
    .look fun _ hsize => ?_
  have hmemory := memory_of_split hsplit
  refine .goes hmemory ⟨valid_word hdata, valid_word hsize⟩ ?_
  exact .bind rfl hmemory fun source h' hmemory' => .bind rfl hmemory' fun _ h' hmemory' =>
    .returns hgrows rfl hmemory'

theorem proxyGetBufferStatus_checks (a b c : I32) :
    Disciplined env h (.proxyGetBufferStatus a b c) (proxyGetBufferStatus env a b c) := by
  refine .look fun bufferType _ => .look fun memory hsplit => .look fun _ hsize =>
    .look fun _ hunused => ?_
  have hmemory := memory_of_split hsplit
  refine .goes hmemory ⟨valid_word hsize, valid_word hunused⟩ ?_
  obtain ⟨_, hsize⟩ := readU32_of_checkWord hsize
  obtain ⟨_, hunused⟩ := readU32_of_checkWord hunused
  refine .bind rfl hmemory fun source h' hmemory' => .bind rfl hmemory' fun _ h' hmemory' => ?_
  obtain ⟨stored, hstore⟩ := writeU32_of_readU32 hsize le_rfl (UInt32.ofNat source.len)
  obtain ⟨memory', hlast⟩ := writeU32_of_readU32 hunused (length_of_writeU32 hstore).ge 0
  refine .of_leaves rfl (.bind_ok (writeU32_run hmemory' hstore) ?_)
  unfold Leaves
  rw [writeU32_run (memory_setMemory hmemory' stored) hlast]
  trivial

theorem proxyGetHeaderMapSize_checks (a b : I32) :
    Disciplined env h (.proxyGetHeaderMapSize a b) (proxyGetHeaderMapSize env a b) := by
  refine .look fun mapType _ => .look fun memory hsplit => .look fun _ hsize => ?_
  have hmemory := memory_of_split hsplit
  refine .goes hmemory (valid_word hsize) ?_
  obtain ⟨_, hsize⟩ := readU32_of_checkWord hsize
  exact .bind rfl hmemory fun map h' hmemory' => .bind rfl hmemory' fun _ h' hmemory' =>
    .word rfl hmemory' hsize

theorem proxyGetHeaderMapPairs_checks (hgrows : Grows env.allocator) (a b c : I32) :
    Disciplined env h (.proxyGetHeaderMapPairs a b c) (proxyGetHeaderMapPairs env a b c) := by
  refine .look fun mapType _ => .look fun memory hsplit => .look fun _ hdata =>
    .look fun _ hsize => ?_
  have hmemory := memory_of_split hsplit
  refine .goes hmemory ⟨valid_word hdata, valid_word hsize⟩ ?_
  exact .bind rfl hmemory fun map h' hmemory' => .bind rfl hmemory' fun _ h' hmemory' =>
    .returns hgrows rfl hmemory'

theorem proxySetHeaderMapPairs_checks (a b c : I32) :
    Disciplined env h (.proxySetHeaderMapPairs a b c) (proxySetHeaderMapPairs env a b c) := by
  refine .look fun mapType _ => .look fun range hslice => .look fun memory hsplit =>
    .look fun bytes hread => ?_
  exact .goes (memory_of_split hsplit) (valid_range hslice hread)
    (.keeps rfl (memory_of_split hsplit))

theorem proxyGetHeaderMapValue_checks (hgrows : Grows env.allocator) (a b c d e : I32) :
    Disciplined env h (.proxyGetHeaderMapValue a b c d e)
      (proxyGetHeaderMapValue env a b c d e) := by
  refine .look fun mapType _ => .look fun range hslice => .look fun memory hsplit =>
    .look fun _ hdata => .look fun _ hsize => .look fun key hread => ?_
  have hmemory := memory_of_split hsplit
  refine .goes hmemory ⟨valid_range hslice hread, valid_word hdata, valid_word hsize⟩ ?_
  exact .bind rfl hmemory fun map h' hmemory' => .bind rfl hmemory' fun value h' hmemory' =>
    .returns hgrows rfl hmemory'

/-- The functions that change one pair with a key and a value. -/
theorem changeHeaderMapValue_checks {function : HostCall}
    {change : Bytes → Bytes → Multimap.Write Bytes Bytes} {a b c d e : I32}
    (hpointers : function.pointers = [.range b c, .range d e])
    (hnone : function.returnsWord = none) :
    Disciplined env h function (changeHeaderMapValue env change a b c d e) := by
  refine .look fun mapType _ => .look fun keyRange hkeySlice => .look fun valueRange hvalueSlice =>
    .look fun memory hsplit => .look fun key hkey => .look fun value hvalue => ?_
  refine .goes (memory_of_split hsplit) ?_ (.keeps hnone (memory_of_split hsplit))
  rw [hpointers]
  exact ⟨valid_range hkeySlice hkey, valid_range hvalueSlice hvalue⟩

theorem proxyRemoveHeaderMapValue_checks (a b c : I32) :
    Disciplined env h (.proxyRemoveHeaderMapValue a b c)
      (proxyRemoveHeaderMapValue env a b c) := by
  refine .look fun mapType _ => .look fun range hslice => .look fun memory hsplit =>
    .look fun key hread => ?_
  exact .goes (memory_of_split hsplit) (valid_range hslice hread)
    (.keeps rfl (memory_of_split hsplit))

theorem proxyContinueStream_checks (a : I32) :
    Disciplined env h (.proxyContinueStream a) (proxyContinueStream env a) := by
  have hkeeps : KeepsMemory (proxyContinueStream env a) := by
    unfold proxyContinueStream; infer_instance
  exact .plain rfl rfl

theorem proxyCloseStream_checks (a : I32) :
    Disciplined env h (.proxyCloseStream a) (proxyCloseStream env a) := by
  have hkeeps : KeepsMemory (proxyCloseStream env a) := by unfold proxyCloseStream; infer_instance
  exact .plain rfl rfl

theorem proxySendLocalResponse_checks (a b c d e f g i : I32) :
    Disciplined env h (.proxySendLocalResponse a b c d e f g i)
      (proxySendLocalResponse env a b c d e f g i) := by
  refine .look fun _ hdetailsSlice => .look fun _ hbodySlice => .look fun _ hheadersSlice =>
    .look fun memory hsplit => .look fun _ hdetails => .look fun _ hbody =>
    .look fun _ hheaders => ?_
  exact .goes (memory_of_split hsplit) ⟨valid_range hdetailsSlice hdetails,
    valid_range hbodySlice hbody, valid_range hheadersSlice hheaders⟩
    (.keeps rfl (memory_of_split hsplit))

theorem proxyGetProperty_checks (hgrows : Grows env.allocator) (a b c d : I32) :
    Disciplined env h (.proxyGetProperty a b c d) (proxyGetProperty env a b c d) := by
  refine .look fun range hslice => .look fun memory hsplit => .look fun _ hdata =>
    .look fun _ hsize => .look fun raw hread => ?_
  have hmemory := memory_of_split hsplit
  refine .goes hmemory ⟨valid_range hslice hread, valid_word hdata, valid_word hsize⟩ ?_
  exact .bind rfl hmemory fun _ h' hmemory' => .bind rfl hmemory' fun value h' hmemory' =>
    .returns hgrows rfl hmemory'

theorem proxySetProperty_checks (a b c d : I32) :
    Disciplined env h (.proxySetProperty a b c d) (proxySetProperty env a b c d) := by
  refine .look fun _ hpathSlice => .look fun _ hvalueSlice => .look fun memory hsplit =>
    .look fun raw hpath => .look fun _ _ => .look fun value hvalue => ?_
  exact .goes (memory_of_split hsplit) ⟨valid_range hpathSlice hpath, valid_range hvalueSlice hvalue⟩
    (.keeps rfl (memory_of_split hsplit))

/-! ### The shared services -/

theorem proxySetSharedData_checks (a b c d e : I32) :
    Disciplined env h (.proxySetSharedData a b c d e) (proxySetSharedData env a b c d e) := by
  refine .look fun _ hkeySlice => .look fun _ hvalueSlice => .look fun memory hsplit =>
    .look fun key hkey => .look fun value hvalue => ?_
  exact .goes (memory_of_split hsplit) ⟨valid_range hkeySlice hkey, valid_range hvalueSlice hvalue⟩
    (.keeps rfl (memory_of_split hsplit))

theorem proxyGetSharedData_checks (hgrows : Grows env.allocator) (a b c d e : I32) :
    Disciplined env h (.proxyGetSharedData a b c d e) (proxyGetSharedData env a b c d e) := by
  refine .look fun _ hslice => .look fun memory hsplit => .look fun _ hdata => .look fun _ hsize =>
    .look fun _ hcas => .look fun key hread => ?_
  have hmemory := memory_of_split hsplit
  refine .goes hmemory
    ⟨valid_range hslice hread, valid_word hdata, valid_word hsize, valid_word hcas⟩ ?_
  obtain ⟨_, hcas⟩ := readU32_of_checkWord hcas
  exact .bind rfl hmemory fun vmId h' hmemory' => .bind rfl hmemory' fun value h' hmemory' =>
    .returnsThen hgrows rfl hmemory' hcas

theorem proxyRegisterSharedQueue_checks (a b c : I32) :
    Disciplined env h (.proxyRegisterSharedQueue a b c) (proxyRegisterSharedQueue env a b c) := by
  refine .look fun _ hslice => .look fun memory hsplit => .look fun _ hptr =>
    .look fun name hread => .look fun vmId _ => ?_
  have hmemory := memory_of_split hsplit
  refine .goes hmemory ⟨valid_range hslice hread, valid_word hptr⟩ ?_
  exact .asksWithin rfl (fun _ => rfl) hmemory hptr

theorem proxyResolveSharedQueue_checks (a b c d e : I32) :
    Disciplined env h (.proxyResolveSharedQueue a b c d e)
      (proxyResolveSharedQueue env a b c d e) := by
  refine .look fun _ hvmSlice => .look fun _ hslice => .look fun memory hsplit =>
    .look fun _ hptr => .look fun vmId hvm => .look fun name hread => .look fun own _ => ?_
  have hmemory := memory_of_split hsplit
  refine .goes hmemory ⟨valid_range hvmSlice hvm, valid_range hslice hread, valid_word hptr⟩ ?_
  exact .asksWithin rfl (fun _ => rfl) hmemory hptr

theorem proxyEnqueueSharedQueue_checks (a b c : I32) :
    Disciplined env h (.proxyEnqueueSharedQueue a b c) (proxyEnqueueSharedQueue env a b c) := by
  refine .look fun queue _ => .look fun _ hslice => .look fun memory hsplit =>
    .look fun value hread => ?_
  exact .goes (memory_of_split hsplit) (valid_range hslice hread)
    (.keeps rfl (memory_of_split hsplit))

theorem proxyDequeueSharedQueue_checks (hgrows : Grows env.allocator) (a b c : I32) :
    Disciplined env h (.proxyDequeueSharedQueue a b c) (proxyDequeueSharedQueue env a b c) := by
  refine .look fun queue _ => .look fun memory hsplit => .look fun _ hdata =>
    .look fun _ hsize => ?_
  have hmemory := memory_of_split hsplit
  refine .goes hmemory ⟨valid_word hdata, valid_word hsize⟩ ?_
  exact .bind rfl hmemory fun value h' hmemory' => .returns hgrows rfl hmemory'

theorem proxyDefineMetric_checks (a b c d : I32) :
    Disciplined env h (.proxyDefineMetric a b c d) (proxyDefineMetric env a b c d) := by
  refine .look fun kind _ => .look fun _ hslice => .look fun memory hsplit => .look fun _ hptr =>
    .look fun name hread => .look fun vmId _ => ?_
  have hmemory := memory_of_split hsplit
  refine .goes hmemory ⟨valid_range hslice hread, valid_word hptr⟩ ?_
  exact .asksWithin rfl (fun _ => rfl) hmemory hptr

theorem proxyRecordMetric_checks (a : I32) (value : I64) :
    Disciplined env h (.proxyRecordMetric a value) (proxyRecordMetric env a value) := by
  have hkeeps : KeepsMemory (proxyRecordMetric env a value) := by
    unfold proxyRecordMetric; infer_instance
  exact .plain rfl rfl

theorem proxyIncrementMetric_checks (a : I32) (delta : I64) :
    Disciplined env h (.proxyIncrementMetric a delta) (proxyIncrementMetric env a delta) := by
  have hkeeps : KeepsMemory (proxyIncrementMetric env a delta) := by
    unfold proxyIncrementMetric; infer_instance
  exact .plain rfl rfl

theorem proxyGetMetric_checks (a b : I32) :
    Disciplined env h (.proxyGetMetric a b) (proxyGetMetric env a b) := by
  refine .look fun metric _ => .look fun memory hsplit => .look fun _ hptr => ?_
  have hmemory := memory_of_split hsplit
  refine .goes hmemory (valid_long hptr) ?_
  have hreads (n : UInt64) : (Word.u64 n).Reads memory _ := ⟨_, ok_of_checked hptr⟩
  exact .storesWord rfl (.of_leaves (askHeld_leaves (fun _ => rfl) h)) hmemory hreads

/-! ### The clock -/

theorem readU64_of_writable {memory memory' : Bytes} {ptr : GuestPtr} {value : UInt64}
    (hwrite : GuestMemory.writeU64 memory ptr value = .ok memory') :
    ∃ found, readU64 memory ptr = .ok found := by
  have hwrite : writeRange 8 memory ptr (LittleEndian.toBytes 8 value.toNat) = .ok memory' := hwrite
  obtain ⟨-, hfits, hinside, -⟩ := writeRange_ok.1 hwrite
  exact ⟨_, readU64_ok.2 ⟨_, readRange_ok.2 ⟨hfits, hinside, rfl⟩, rfl⟩⟩

theorem proxyGetCurrentTimeNanoseconds_checks (a : I32) :
    Disciplined env h (.proxyGetCurrentTimeNanoseconds a)
      (proxyGetCurrentTimeNanoseconds env a) :=
  .look fun memory _ => .look fun now _ => .writes
    (fun memory memory' hwrite => by
      obtain ⟨found, hread⟩ := readU64_of_writable hwrite
      exact ⟨memory, found, rfl, hread⟩) rfl

/-! ### The callouts -/

theorem proxyGetStatus_checks (hgrows : Grows env.allocator) (a b c : I32) :
    Disciplined env h (.proxyGetStatus a b c) (proxyGetStatus env a b c) := by
  refine .look fun memory hsplit => .look fun _ hcode => .look fun _ hdata => .look fun _ hsize =>
    .look fun delivery _ => .look fun status _ => ?_
  have hmemory := memory_of_split hsplit
  refine .goes hmemory ⟨valid_word hcode, valid_word hdata, valid_word hsize⟩ ?_
  obtain ⟨_, hcode⟩ := readU32_of_checkWord hcode
  exact .returnsThen hgrows rfl hmemory hcode

theorem proxyHttpCall_checks (a b c d e f g i j k : I32) :
    Disciplined env h (.proxyHttpCall a b c d e f g i j k)
      (proxyHttpCall env a b c d e f g i j k) := by
  refine .look fun _ hupstreamSlice => .look fun _ hheadersSlice => .look fun _ hbodySlice =>
    .look fun _ htrailersSlice => .look fun memory hsplit => .look fun _ hptr =>
    .look fun upstream hupstream => .look fun rawHeaders hheaders => .look fun _ _ =>
    .look fun headers _ => .look fun body hbody => .look fun rawTrailers htrailers =>
    .look fun _ _ => .look fun trailers _ => .look fun _ _ => ?_
  have hmemory := memory_of_split hsplit
  refine .goes hmemory ⟨valid_range hupstreamSlice hupstream, valid_range hheadersSlice hheaders,
    valid_range hbodySlice hbody, valid_range htrailersSlice htrailers, valid_word hptr⟩ ?_
  exact .opensCallout rfl hmemory hptr

theorem proxyGrpcCall_checks (a b c d e f g i j k l m : I32) :
    Disciplined env h (.proxyGrpcCall a b c d e f g i j k l m)
      (proxyGrpcCall env a b c d e f g i j k l m) := by
  refine .look fun _ hupstreamSlice => .look fun _ hserviceSlice => .look fun _ hmethodSlice =>
    .look fun _ hinitialSlice => .look fun _ hmessageSlice => .look fun memory hsplit =>
    .look fun _ hptr => .look fun upstream hupstream => .look fun service hservice =>
    .look fun method hmethod => .look fun rawInitial hinitial => .look fun initial _ =>
    .look fun message hmessage => ?_
  have hmemory := memory_of_split hsplit
  refine .goes hmemory ⟨valid_range hupstreamSlice hupstream, valid_range hserviceSlice hservice,
    valid_range hmethodSlice hmethod, valid_range hinitialSlice hinitial,
    valid_range hmessageSlice hmessage, valid_word hptr⟩ ?_
  exact .opensCallout rfl hmemory hptr

theorem proxyGrpcStream_checks (a b c d e f g i j : I32) :
    Disciplined env h (.proxyGrpcStream a b c d e f g i j)
      (proxyGrpcStream env a b c d e f g i j) := by
  refine .look fun _ hupstreamSlice => .look fun _ hserviceSlice => .look fun _ hmethodSlice =>
    .look fun _ hinitialSlice => .look fun memory hsplit => .look fun _ hptr =>
    .look fun upstream hupstream => .look fun service hservice => .look fun method hmethod =>
    .look fun rawInitial hinitial => .look fun initial _ => ?_
  have hmemory := memory_of_split hsplit
  refine .goes hmemory ⟨valid_range hupstreamSlice hupstream, valid_range hserviceSlice hservice,
    valid_range hmethodSlice hmethod, valid_range hinitialSlice hinitial, valid_word hptr⟩ ?_
  exact .opensCallout rfl hmemory hptr

instance {id : I32} : Quiet (find id) := by
  unfold find
  have hfound : ∀ (callout : CalloutId) (callouts : CalloutTable),
      Quiet (match callouts.get callout with
        | none => do
          require (callouts.issued callout) .notFound
          return .ended
        | some entry => do
          let caller ← context .notFound
          require (caller = entry.caller) .notFound
          return .opened callout entry : Body Found) := by
    intro callout callouts
    split <;> infer_instance
  infer_instance

theorem proxyGrpcSend_checks (a b c d : I32) :
    Disciplined env h (.proxyGrpcSend a b c d) (proxyGrpcSend env a b c d) := by
  refine .look fun _ hslice => .look fun memory hsplit => .look fun bytes hread =>
    .look fun found _ => ?_
  refine .goes (memory_of_split hsplit) (valid_range hslice hread) ?_
  cases found with
  | ended => exact .keeps rfl (memory_of_split hsplit)
  | opened callout entry => exact .keeps rfl (memory_of_split hsplit)

theorem proxyGrpcCancel_checks (a : I32) :
    Disciplined env h (.proxyGrpcCancel a) (proxyGrpcCancel env a) := by
  refine .look fun _ _ => .look fun found _ => ?_
  cases found with
  | ended => exact .plain rfl rfl
  | opened callout entry => exact .plain rfl rfl

theorem proxyGrpcClose_checks (a : I32) :
    Disciplined env h (.proxyGrpcClose a) (proxyGrpcClose env a) := by
  refine .look fun _ _ => .look fun found _ => ?_
  cases found with
  | ended => exact .plain rfl rfl
  | opened callout entry =>
    dsimp only
    cases entry.kind with
    | httpCall => exact .plain rfl rfl
    | grpcCall => exact .plain rfl rfl
    | grpcStream => exact .plain rfl rfl

/-! ### The foreign functions -/

theorem writeRange_nil {memory copied : Bytes} {ptr : GuestPtr}
    (hwrite : writeRange 0 memory ptr [] = .ok copied) : copied = memory := by
  obtain ⟨-, -, -, hcopied⟩ := writeRange_ok.1 hwrite
  simpa using hcopied

/-- An empty return stores zeros, or wrote nothing. -/
theorem zeros_leaves {function : HostCall} {memory : Bytes} {data size : Option GuestPtr}
    (hgrows : Grows env.allocator) (hmemory : h.memory = some memory) :
    Leaves (Prog.mapErr Failure.ofError (writeOptionalReturn env.allocator [] data size))
      (fun _ t h' => t = [] ∧ ∃ stored memory', h'.memory = some memory' ∧
        storeWord memory data 0 = .ok stored ∧ storeWord stored size 0 = .ok memory')
      (fun _ t h' => Unwritten env function t (some memory) h'.memory)
      (fun t h' => Unwritten env function t (some memory) h'.memory) h := by
  have hnone : ∀ t h', Untouched env.allocator ([] : Bytes).length h t h' →
      Unwritten env function t (some memory) h'.memory := fun _ _ => .of_untouched hmemory
  refine .mapErr ((writeOptionalReturn_leaves env.allocator [] data size hgrows
    h).mono ?_ (fun _ => hnone) hnone)
  rintro ⟨⟩ t h' ⟨address, h₁, memory₁, memory', halloc, hmemory₁, rfl, -, hreturned⟩
  have hroom : roomFor [] data = 0 := by unfold roomFor; split <;> rfl
  rw [hroom] at halloc
  obtain ⟨rfl, rfl, rfl⟩ := halloc.eq_of_zero
  rw [hmemory] at hmemory₁
  cases hmemory₁
  obtain ⟨copied, stored, hcopy, hdata, hsize⟩ := hreturned
  have hsame : copied = memory := by
    split at hcopy
    · exact writeRange_nil hcopy
    · exact hcopy
  rw [hsame] at hdata
  exact ⟨rfl, stored, memory', memory_setMemory hmemory memory', hdata, hsize⟩

theorem proxyCallForeignFunction_checks (hgrows : Grows env.allocator) (a b c d e f : I32) :
    Disciplined env h (.proxyCallForeignFunction a b c d e f)
      (proxyCallForeignFunction env a b c d e f) := by
  refine .look fun _ hnameSlice => .look fun _ hargumentsSlice => .look fun memory hsplit =>
    .look fun _ hdata => .look fun _ hsize => .look fun name hname =>
    .look fun arguments harguments => .look fun call _ => ?_
  have hmemory := memory_of_split hsplit
  have hvalid : (HostCall.proxyCallForeignFunction a b c d e f).pointers.Forall
      (·.Valid (some memory)) := by
    have hrange := valid_range hnameSlice hname
    have hrange' := valid_range hargumentsSlice harguments
    have hword := valid_wanted (validPointer_of_check hmemory hdata)
    have hword' := valid_wanted (validPointer_of_check hmemory hsize)
    rw [List.forall_iff_forall_mem]
    intro p hp
    simp only [HostCall.pointers, List.mem_append, List.mem_cons, List.not_mem_nil, or_false] at hp
    rcases hp with ((rfl | rfl) | hp) | hp
    · exact hrange
    · exact hrange'
    · exact hword p hp
    · exact hword' p hp
  refine .goes hmemory hvalid (.of_leaves rfl ?_)
  unfold askStream
  rw [bind_assoc]
  refine .bind_emit ?_
  cases hanswer : env.world.stream.callForeignFunction call ⟨name, arguments⟩ with
  | none => exact hmemory ▸ .same
  | some answer =>
    cases answer with
    | ok results =>
      exact (Acts.return_leaves hgrows hmemory).mono (fun _ _ _ _ => trivial)
        (fun _ t _ hu => hu.prepend (t := [_])) fun t _ hu => hu.prepend (t := [_])
    | error status =>
      obtain ⟨failure, hfail⟩ : ∃ failure, (fromEmbedder (.error status) : Body Bytes) =
          fail failure := fromEmbedder_error status
      have hattempt : (Prog.attempt (fail failure : Body Bytes) : Body (Except Failure Bytes)).run h =
          ⟨.ok (.error (.status failure)), h, []⟩ := rfl
      have hanswered : (Prog.orPanic (some (.error status)) : Body (Except Status Bytes)).run h =
          ⟨.ok (.error status), h, []⟩ := rfl
      refine .bind_ok hanswered ?_
      rw [hfail]
      refine .bind_ok hattempt ?_
      refine .bind ((zeros_leaves hgrows hmemory).mono (fun _ _ _ hzeros => hzeros)
        (fun _ t _ hu => hu.prepend (t := [_])) fun t _ hu => hu.prepend (t := [_])) ?_
      rintro u t h' ⟨rfl, stored, memory', hmemory', hdata, hsize⟩
      refine .throw ?_
      rw [hmemory']
      exact .zeros (List.mem_singleton_self _) hanswer hdata hsize

end Functions

end ProxyWasmHost
