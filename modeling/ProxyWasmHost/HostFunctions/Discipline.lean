/-
  Check before act, for the whole table: a call of a function of the ABI whose pointers the
  guest's memory does not hold does nothing, the words of an accepted call are stored, and a
  call that is not answered OK wrote nothing.
-/
import ProxyWasmHost.HostFunctions.CheckFirst
import ProxyWasmHost.HostFunctions.Honest

namespace ProxyWasmHost

open Prog GuestMemory

/-! ## The functions of the ABI -/

/-- Whether a function is one of the ABI, and not of WASI. -/
def HostCall.ofAbi : HostCall → Bool
  | .fdWrite _ _ _ _ | .clockTimeGet _ _ _ | .randomGet _ _ | .environSizesGet _ _
  | .environGet _ _ | .argsSizesGet _ _ | .argsGet _ _ | .procExit _ => false
  | _ => true

/-- A function runs an honest body that checks first. -/
def HostCall.ChecksFirst (env : Env) (function : HostCall) : Prop :=
  ∃ body, Honest body ∧ function.run env = complete body ∧ ∀ h, Disciplined env h function body

theorem HostCall.checksFirst {env : Env} (hgrows : Grows env.allocator) {function : HostCall}
    (hAbi : function.ofAbi = true) : function.ChecksFirst env := by
  cases function with
  | proxyDone => exact ⟨_, inferInstance, rfl, fun _ => proxyDone_checks⟩
  | proxySetEffectiveContext a =>
    exact ⟨_, inferInstance, rfl, fun _ => proxySetEffectiveContext_checks a⟩
  | proxyLog a b c => exact ⟨_, inferInstance, rfl, fun _ => proxyLog_checks a b c⟩
  | proxyGetLogLevel a => exact ⟨_, inferInstance, rfl, fun _ => proxyGetLogLevel_checks a⟩
  | proxyGetCurrentTimeNanoseconds a =>
    exact ⟨_, inferInstance, rfl, fun _ => proxyGetCurrentTimeNanoseconds_checks a⟩
  | proxySetTickPeriodMilliseconds a =>
    exact ⟨_, inferInstance, rfl, fun _ => proxySetTickPeriodMilliseconds_checks a⟩
  | proxySetBufferBytes a b c d e =>
    exact ⟨_, inferInstance, rfl, fun _ => proxySetBufferBytes_checks a b c d e⟩
  | proxyGetBufferBytes a b c d e =>
    exact ⟨_, inferInstance, rfl, fun _ => proxyGetBufferBytes_checks hgrows a b c d e⟩
  | proxyGetBufferStatus a b c =>
    exact ⟨_, inferInstance, rfl, fun _ => proxyGetBufferStatus_checks a b c⟩
  | proxyGetHeaderMapSize a b =>
    exact ⟨_, inferInstance, rfl, fun _ => proxyGetHeaderMapSize_checks a b⟩
  | proxyGetHeaderMapPairs a b c =>
    exact ⟨_, inferInstance, rfl, fun _ => proxyGetHeaderMapPairs_checks hgrows a b c⟩
  | proxySetHeaderMapPairs a b c =>
    exact ⟨_, inferInstance, rfl, fun _ => proxySetHeaderMapPairs_checks a b c⟩
  | proxyGetHeaderMapValue a b c d e =>
    exact ⟨_, inferInstance, rfl, fun _ => proxyGetHeaderMapValue_checks hgrows a b c d e⟩
  | proxyAddHeaderMapValue a b c d e =>
    have hbody : Honest (ProxyWasmHost.proxyAddHeaderMapValue env a b c d e) := inferInstance
    exact ⟨_, hbody, rfl, fun _ => changeHeaderMapValue_checks rfl rfl⟩
  | proxyReplaceHeaderMapValue a b c d e =>
    have hbody : Honest (ProxyWasmHost.proxyReplaceHeaderMapValue env a b c d e) :=
      inferInstance
    exact ⟨_, hbody, rfl, fun _ => changeHeaderMapValue_checks rfl rfl⟩
  | proxyRemoveHeaderMapValue a b c =>
    exact ⟨_, inferInstance, rfl, fun _ => proxyRemoveHeaderMapValue_checks a b c⟩
  | proxyContinueStream a => exact ⟨_, inferInstance, rfl, fun _ => proxyContinueStream_checks a⟩
  | proxyCloseStream a => exact ⟨_, inferInstance, rfl, fun _ => proxyCloseStream_checks a⟩
  | proxyGetStatus a b c =>
    exact ⟨_, inferInstance, rfl, fun _ => proxyGetStatus_checks hgrows a b c⟩
  | proxySendLocalResponse a b c d e f g i =>
    exact ⟨_, inferInstance, rfl, fun _ => proxySendLocalResponse_checks a b c d e f g i⟩
  | proxyHttpCall a b c d e f g i j k =>
    exact ⟨_, inferInstance, rfl, fun _ => proxyHttpCall_checks a b c d e f g i j k⟩
  | proxyGrpcCall a b c d e f g i j k l m =>
    exact ⟨_, inferInstance, rfl, fun _ => proxyGrpcCall_checks a b c d e f g i j k l m⟩
  | proxyGrpcStream a b c d e f g i j =>
    exact ⟨_, inferInstance, rfl, fun _ => proxyGrpcStream_checks a b c d e f g i j⟩
  | proxyGrpcSend a b c d => exact ⟨_, inferInstance, rfl, fun _ => proxyGrpcSend_checks a b c d⟩
  | proxyGrpcCancel a => exact ⟨_, inferInstance, rfl, fun _ => proxyGrpcCancel_checks a⟩
  | proxyGrpcClose a => exact ⟨_, inferInstance, rfl, fun _ => proxyGrpcClose_checks a⟩
  | proxySetSharedData a b c d e =>
    exact ⟨_, inferInstance, rfl, fun _ => proxySetSharedData_checks a b c d e⟩
  | proxyGetSharedData a b c d e =>
    exact ⟨_, inferInstance, rfl, fun _ => proxyGetSharedData_checks hgrows a b c d e⟩
  | proxyRegisterSharedQueue a b c =>
    exact ⟨_, inferInstance, rfl, fun _ => proxyRegisterSharedQueue_checks a b c⟩
  | proxyResolveSharedQueue a b c d e =>
    exact ⟨_, inferInstance, rfl, fun _ => proxyResolveSharedQueue_checks a b c d e⟩
  | proxyEnqueueSharedQueue a b c =>
    exact ⟨_, inferInstance, rfl, fun _ => proxyEnqueueSharedQueue_checks a b c⟩
  | proxyDequeueSharedQueue a b c =>
    exact ⟨_, inferInstance, rfl, fun _ => proxyDequeueSharedQueue_checks hgrows a b c⟩
  | proxyDefineMetric a b c d =>
    exact ⟨_, inferInstance, rfl, fun _ => proxyDefineMetric_checks a b c d⟩
  | proxyRecordMetric a value =>
    exact ⟨_, inferInstance, rfl, fun _ => proxyRecordMetric_checks a value⟩
  | proxyIncrementMetric a delta =>
    exact ⟨_, inferInstance, rfl, fun _ => proxyIncrementMetric_checks a delta⟩
  | proxyGetMetric a b => exact ⟨_, inferInstance, rfl, fun _ => proxyGetMetric_checks a b⟩
  | proxyGetProperty a b c d =>
    exact ⟨_, inferInstance, rfl, fun _ => proxyGetProperty_checks hgrows a b c d⟩
  | proxySetProperty a b c d =>
    exact ⟨_, inferInstance, rfl, fun _ => proxySetProperty_checks a b c d⟩
  | proxyCallForeignFunction a b c d e f =>
    exact ⟨_, inferInstance, rfl, fun _ => proxyCallForeignFunction_checks hgrows a b c d e f⟩
  | fdWrite a b c d => cases hAbi
  | clockTimeGet a b c => cases hAbi
  | randomGet a b => cases hAbi
  | environSizesGet a b => cases hAbi
  | environGet a b => cases hAbi
  | argsSizesGet a b => cases hAbi
  | argsGet a b => cases hAbi
  | procExit a => cases hAbi

/-! ## The functions that return only words -/

section Words

variable {env : Env} {h h' : HostState} {memory : Bytes} {t : List Event}

theorem stored_word {ptr : GuestPtr} {w : Word} {memory' : Bytes}
    (hstore : w.store memory ptr = .ok memory') :
    Stored [(ptr, w)] (some memory) (some memory') :=
  ⟨memory, memory', rfl, rfl, stored_single hstore⟩

theorem proxyGetLogLevel_stores {a : I32} (hvalid : (Pointer.word a).Valid h.memory) :
    ((proxyGetLogLevel a).run h).exit = .ok () ∧
      Stored [(a, .u32 h.abi.services.logLevel.toI32)] h.memory
        ((proxyGetLogLevel a).run h).state.memory := by
  obtain ⟨memory, found, hmemory, hread⟩ := hvalid
  obtain ⟨memory', hwrite⟩ := writeU32_of_readU32 hread le_rfl h.abi.services.logLevel.toI32
  have hrun : (proxyGetLogLevel a).run h = ⟨.ok (), h.setMemory memory', []⟩ := by
    unfold proxyGetLogLevel
    rw [bind_of_ok_nil (split_run hmemory),
      bind_of_ok_nil (a := h.abi.services.logLevel) (r := h) rfl, writeU32_run hmemory hwrite]
  rw [hrun, hmemory, memory_setMemory hmemory]
  exact ⟨rfl, stored_word hwrite⟩

theorem proxyGetCurrentTimeNanoseconds_stores {a : I32} {now : UInt64}
    (hvalid : (Pointer.long a).Valid h.memory) (hnow : env.world.realtimeNanos = some now) :
    ((proxyGetCurrentTimeNanoseconds env a).run h).exit = .ok () ∧
      Stored [(a, .u64 now)] h.memory
        ((proxyGetCurrentTimeNanoseconds env a).run h).state.memory := by
  obtain ⟨memory, found, hmemory, hread⟩ := hvalid
  obtain ⟨memory', hwrite⟩ := writeU64_of_readU64 hread le_rfl now
  have hrun : (proxyGetCurrentTimeNanoseconds env a).run h = ⟨.ok (), h.setMemory memory', []⟩ := by
    unfold proxyGetCurrentTimeNanoseconds
    rw [bind_of_ok_nil (split_run hmemory), hnow, bind_of_ok_nil (a := now) (r := h) rfl]
    exact writeMemory_run hmemory hwrite
  rw [hrun, hmemory, memory_setMemory hmemory]
  exact ⟨rfl, stored_word hwrite⟩

theorem proxyGetHeaderMapSize_stores {mapId returnSize : I32} {mapType : MapType} {map : HeaderMap}
    (hvalid : (Pointer.word returnSize).Valid h.memory)
    (hid : MapType.tryFrom mapId = some mapType)
    (hmap : (headerMap env mapType .read).run h = ⟨.ok map, h', t⟩)
    (hfits : encodedSizeOf map < 2 ^ 32) :
    ((proxyGetHeaderMapSize env mapId returnSize).run h).exit = .ok () ∧
      Stored [(returnSize, .u32 (UInt32.ofNat (encodedSizeOf map)))] h.memory
        ((proxyGetHeaderMapSize env mapId returnSize).run h).state.memory := by
  obtain ⟨memory, found, hmemory, hread⟩ := hvalid
  have hmemory' : h'.memory = some memory := by
    have hkept : ((headerMap env mapType .read).run h).state.memory = h.memory := memory_of_keeps
    rw [hmap] at hkept
    exact hkept.trans hmemory
  obtain ⟨memory', hwrite⟩ := writeU32_of_readU32 hread le_rfl (UInt32.ofNat (encodedSizeOf map))
  have hlook : (orStatus (MapType.tryFrom mapId) .badArgument).run h = ⟨.ok mapType, h, []⟩ := by
    rw [hid]
    rfl
  have hrun : (proxyGetHeaderMapSize env mapId returnSize).run h =
      ⟨.ok (), h'.setMemory memory', t⟩ := by
    unfold proxyGetHeaderMapSize
    rw [bind_of_ok_nil hlook, bind_of_ok_nil (split_run hmemory),
      bind_of_ok_nil (checkWord_of_ok hread), bind_of_ok hmap]
    dsimp only
    rw [require, Prog.require, if_pos hfits, bind_of_ok_nil (a := ()) (r := h') rfl,
      writeU32_run hmemory' hwrite]
    exact congrArg (Res.mk _ _) (List.append_nil t)
  rw [hrun, hmemory, memory_setMemory hmemory']
  exact ⟨rfl, stored_word hwrite⟩

theorem proxyGetBufferStatus_stores {bufferId returnBufferSize returnUnused : I32}
    {bufferType : BufferType} {source : Source}
    (hvalid : (Pointer.word returnBufferSize).Valid h.memory)
    (hvalid' : (Pointer.word returnUnused).Valid h.memory)
    (hid : BufferType.tryFrom bufferId = some bufferType)
    (hsource : (readBuffer env bufferType).run h = ⟨.ok source, h', t⟩)
    (hfits : source.len < 2 ^ 32) :
    ((proxyGetBufferStatus env bufferId returnBufferSize returnUnused).run h).exit = .ok () ∧
      Stored [(returnBufferSize, .u32 (UInt32.ofNat source.len)), (returnUnused, .u32 0)] h.memory
        ((proxyGetBufferStatus env bufferId returnBufferSize returnUnused).run h).state.memory := by
  obtain ⟨memory, found, hmemory, hread⟩ := hvalid
  obtain ⟨_, found', hmemory₂, hread'⟩ := hvalid'
  cases hmemory.symm.trans hmemory₂
  have hmemory' : h'.memory = some memory := by
    have hkept : ((readBuffer env bufferType).run h).state.memory = h.memory := memory_of_keeps
    rw [hsource] at hkept
    exact hkept.trans hmemory
  obtain ⟨stored, hstore⟩ := writeU32_of_readU32 hread le_rfl (UInt32.ofNat source.len)
  obtain ⟨memory', hlast⟩ := writeU32_of_readU32 hread' (length_of_writeU32 hstore).ge 0
  have hrun : (proxyGetBufferStatus env bufferId returnBufferSize returnUnused).run h =
      ⟨.ok (), (h'.setMemory stored).setMemory memory', t⟩ := by
    unfold proxyGetBufferStatus
    rw [bind_of_ok_nil (tryFrom_run hid), bind_of_ok_nil (split_run hmemory),
      bind_of_ok_nil (checkWord_of_ok hread), bind_of_ok_nil (checkWord_of_ok hread'),
      bind_of_ok hsource]
    rw [require, Prog.require, if_pos hfits, bind_of_ok_nil (a := ()) (r := h') rfl,
      bind_of_ok_nil (writeU32_run hmemory' hstore),
      writeU32_run (memory_setMemory hmemory' stored) hlast]
    exact congrArg (Res.mk _ _) (List.append_nil t)
  rw [hrun, hmemory, memory_setMemory (memory_setMemory hmemory' stored)]
  refine ⟨rfl, memory, memory', rfl, rfl, ?_⟩
  rw [List.foldlM_cons]
  change (GuestMemory.writeU32 memory returnBufferSize _ >>= _) = _
  rw [hstore]
  exact stored_single hlast

end Words

/-! ## What a call leaves -/

/-- **The embedder accepted** a call of a function that returns only words: `words` fit their
    slots, and go to these pointers. `h` is the state before the call, and `t` its trace. -/
inductive HostCall.Returns (env : Env) (h : HostState) (t : List Event) :
    HostCall → List (GuestPtr × Word) → Prop
  | asked {function : HostCall} {ptr : GuestPtr} {e : Event} {w : Word}
      (hptr : function.returnsWord = some ptr) (he : e ∈ t) (hw : e.word = some w) :
      Returns env h t function [(ptr, w)]
  | logLevel {ptr : I32} :
      Returns env h t (.proxyGetLogLevel ptr) [(ptr, .u32 h.abi.services.logLevel.toI32)]
  | time {ptr : I32} {now : UInt64} (hnow : env.world.realtimeNanos = some now) :
      Returns env h t (.proxyGetCurrentTimeNanoseconds ptr) [(ptr, .u64 now)]
  | headerMapSize {mapId ptr : I32} {mapType : MapType} {map : HeaderMap} {h' : HostState}
      {u : List Event} (hid : MapType.tryFrom mapId = some mapType)
      (hmap : (headerMap env mapType .read).run h = ⟨.ok map, h', u⟩)
      (hfits : encodedSizeOf map < 2 ^ 32) :
      Returns env h t (.proxyGetHeaderMapSize mapId ptr)
        [(ptr, .u32 (UInt32.ofNat (encodedSizeOf map)))]
  | bufferStatus {bufferId size unused : I32} {bufferType : BufferType} {source : Source}
      {h' : HostState} {u : List Event} (hid : BufferType.tryFrom bufferId = some bufferType)
      (hsource : (readBuffer env bufferType).run h = ⟨.ok source, h', u⟩)
      (hfits : source.len < 2 ^ 32) :
      Returns env h t (.proxyGetBufferStatus bufferId size unused)
        [(size, .u32 (UInt32.ofNat source.len)), (unused, .u32 0)]

/-- **What a call leaves that checks before it acts.** A pointer that is not valid is refused
    with nothing done; the words of an accepted call are stored; and a call that is not answered
    OK wrote nothing. -/
structure HostCall.Orderly (env : Env) (h : HostState) (function : HostCall)
    (r : Res HostState Event Error I32) : Prop where
  refused : ∀ p ∈ function.pointers, ¬ p.Valid h.memory →
    r.state = h ∧ r.trace = [] ∧ r.exit ≠ .ok Status.ok.toI32
  stored : (∀ p ∈ function.pointers, p.Valid h.memory) → ∀ words,
    function.Returns env h r.trace words →
      r.exit = .ok Status.ok.toI32 ∧ Stored words h.memory r.state.memory
  unwritten : r.exit ≠ .ok Status.ok.toI32 →
    Unwritten env function r.trace h.memory r.state.memory

section Calls

variable {env : Env} {h : HostState} {function : HostCall}

theorem stored_of_body {words : List (GuestPtr × Word)} (body : Body Unit) [Honest body]
    (hrun : function.run env = complete body)
    (hbody : (body.run h).exit = .ok () ∧
      Stored words h.memory (body.run h).state.memory) :
    ((function.run env).run h).exit = .ok Status.ok.toI32 ∧
      Stored words h.memory ((function.run env).run h).state.memory := by
  rw [hrun, (complete_leaves body h).1]
  exact ⟨complete_ok_iff.2 hbody.1, hbody.2⟩

/-- A body that checks first does so also where a call ends in an answer. -/
theorem orderly_of_disciplined {body : Body Unit} [Honest body]
    (hrun : function.run env = complete body)
    (hchecks : Disciplined env h function body) :
    function.Orderly env h ((function.run env).run h) := by
  obtain ⟨hstate, htrace⟩ := complete_leaves body h
  refine ⟨fun p hp hnot => ?_, fun hvalid words hreturns => ?_, fun hexit => ?_⟩
  · rcases hchecks with hdeclines | ⟨hvalid, -⟩
    · obtain ⟨exit, hrefused, hnotOk⟩ := hdeclines.refused
      rw [hrun, hrefused]
      exact ⟨rfl, rfl, hnotOk⟩
    · exact absurd (hvalid p hp) hnot
  · cases hreturns with
    | asked hptr he hw =>
      refine stored_of_body body hrun ?_
      rw [hrun, htrace] at he
      rcases hchecks with ⟨exit, hdeclines, -⟩ | ⟨-, hacts⟩
      · rw [hdeclines] at he
        cases he
      · exact hacts.stored _ hptr _ he _ hw
    | logLevel =>
      exact stored_of_body (proxyGetLogLevel _) rfl
        (proxyGetLogLevel_stores (hvalid _ (List.mem_singleton_self _)))
    | time hnow =>
      exact stored_of_body (proxyGetCurrentTimeNanoseconds env _) rfl
        (proxyGetCurrentTimeNanoseconds_stores (hvalid _ (List.mem_singleton_self _)) hnow)
    | headerMapSize hid hmap hfits =>
      exact stored_of_body (proxyGetHeaderMapSize env _ _) rfl
        (proxyGetHeaderMapSize_stores (hvalid _ (List.mem_singleton_self _)) hid hmap hfits)
    | bufferStatus hid hsource hfits =>
      exact stored_of_body (proxyGetBufferStatus env _ _ _) rfl
        (proxyGetBufferStatus_stores (hvalid _ List.mem_cons_self)
          (hvalid _ (List.mem_cons_of_mem _ (List.mem_singleton_self _))) hid hsource hfits)
  · rw [hrun, Ne, complete_ok_iff] at hexit
    rw [hrun, hstate, htrace]
    rcases hchecks with ⟨exit, hdeclines, -⟩ | ⟨-, hacts⟩
    · rw [hdeclines]
      exact .same
    · exact hacts.unwritten hexit

end Calls

/-- **Check before act.** Whatever the embedder does, and whatever the allocator does that does
    not shrink the guest's memory, no call of a function of the ABI acts with a pointer that is
    not valid, fails to store the words it was given, or writes when it does not answer OK. -/
theorem HostCall.checks_before_acting {env : Env} (hgrows : Grows env.allocator)
    (function : HostCall) (hAbi : function.ofAbi = true) (h : HostState) :
    function.Orderly env h ((function.run env).run h) := by
  obtain ⟨body, hbody, hrun, hchecks⟩ := HostCall.checksFirst hgrows hAbi
  exact orderly_of_disciplined hrun (hchecks h)

/-- An identifier that has no place in a memory of sixteen bytes is not asked for. -/
theorem register_without_place :
    let r := ((HostCall.proxyRegisterSharedQueue 0 1 13).run ⟨.refusing, fun _ => pure 8⟩).run sixteen
    r.state = sixteen ∧ r.trace = [] ∧ r.exit ≠ .ok Status.ok.toI32 := by
  have hgrows : Grows fun _ => pure 8 := fun _ _ memory hmemory => ⟨memory, hmemory, le_rfl⟩
  have hnot : ¬ (Pointer.word 13).Valid sixteen.memory := by
    rintro ⟨memory, value, hmemory, hread⟩
    cases hmemory
    cases hread
  exact (@HostCall.checks_before_acting ⟨.refusing, fun _ => pure 8⟩ hgrows
    (.proxyRegisterSharedQueue 0 1 13) rfl sixteen).refused (.word 13)
      (List.mem_cons_of_mem _ (List.mem_singleton_self _)) hnot

end ProxyWasmHost
