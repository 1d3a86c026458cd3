/-
  The calls of the guest that name what the crate serves itself: a write is refused, and a read
  answers what the delivery carries, or is refused.
-/
import ProxyWasmHost.HostFunctions.BufferRange
import ProxyWasmHost.HostFunctions.Honest
import ProxyWasmHost.HostFunctions.Resource

namespace ProxyWasmHost

open Prog Codec GuestMemory

/-! ## The resources that calls name -/

/-- The resource of the crate that a call of the guest reads, of a map or a buffer. -/
def HostCall.reads : HostCall → Option Resource
  | .proxyGetHeaderMapSize mapId _ | .proxyGetHeaderMapPairs mapId _ _
  | .proxyGetHeaderMapValue mapId _ _ _ _ => (MapType.tryFrom mapId).bind MapType.resource
  | .proxyGetBufferBytes bufferId _ _ _ _ | .proxyGetBufferStatus bufferId _ _ =>
    (BufferType.tryFrom bufferId).bind BufferType.resource
  | _ => none

/-- The resource of the crate that a call of the guest with this memory writes. -/
def HostCall.writes (memory : Option Bytes) : HostCall → Option Resource
  | .proxySetHeaderMapPairs mapId _ _ | .proxyAddHeaderMapValue mapId _ _ _ _
  | .proxyReplaceHeaderMapValue mapId _ _ _ _ | .proxyRemoveHeaderMapValue mapId _ _ =>
    (MapType.tryFrom mapId).bind MapType.resource
  | .proxySetBufferBytes bufferId _ _ _ _ => (BufferType.tryFrom bufferId).bind BufferType.resource
  | .proxySetProperty pathData pathSize _ _ =>
    (memory.bind fun memory => (readRange pathSize memory pathData).toOption).bind fun raw =>
      pathResource (decodePath raw)
  | _ => none

/-- Whether a delivery carries a resource. -/
def Delivery.carries (d : Delivery) : Resource → Bool
  | .map which => (d.map which).isSome
  | .buffer (.delivered which) => (d.buffer which).isSome
  | _ => false

/-- What only a delivery carries: the maps, and the buffers but for the configurations. -/
def Resource.ofDelivery : Resource → Bool
  | .map _ | .buffer (.delivered _) => true
  | _ => false

variable {env : Env} {h : HostState} {mapType : MapType} {bufferType : BufferType}
  {resource : Resource} {function : HostCall}

theorem MapType.serves_of_resource (hres : mapType.resource = some resource) :
    ∃ which, servesMap mapType = some which ∧ resource = .map which := by
  rw [MapType.resource_eq, Option.map_eq_some_iff] at hres
  obtain ⟨which, hserves, rfl⟩ := hres
  exact ⟨which, hserves, rfl⟩

theorem BufferType.serves_of_resource (hres : bufferType.resource = some resource) :
    ∃ which, servedBuffer bufferType = .crate which ∧ resource = .buffer which := by
  cases bufferType <;> cases hres <;> exact ⟨_, rfl, rfl⟩

/-! ## Writes -/

theorem headerMap_write (hres : mapType.resource = some resource) :
    Declines (headerMap env mapType .write) h := by
  obtain ⟨which, hserves, -⟩ := MapType.serves_of_resource hres
  unfold headerMap
  rw [hserves]
  exact .bind fun _ _ => .of_fail

theorem writeBuffer_declines (hres : bufferType.resource = some resource) :
    Declines (writeBuffer env bufferType) h := by
  obtain ⟨which, hserves, -⟩ := BufferType.serves_of_resource hres
  unfold writeBuffer
  rw [hserves]
  exact .of_fail

theorem setProperty_declines {path : List Bytes} {value : Bytes}
    (hres : pathResource path = some resource) : Declines (setProperty env path value) h := by
  obtain ⟨which, hserves⟩ := served_of_pathResource hres
  unfold setProperty
  rw [hserves]
  exact .of_fail

/-- The type that a look found is the one of the resource. -/
theorem resource_of_orStatus {ι : Type} {found : Option ι} {resourceOf : ι → Option Resource}
    {status : Status} {a : ι} (hres : found.bind resourceOf = some resource)
    (hfound : (orStatus found status).run h = ⟨.ok a, h, []⟩) : resourceOf a = some resource := by
  cases found with
  | none => cases hfound
  | some b =>
    cases hfound
    exact hres

theorem changeHeaderMapValue_declines
    {change : Bytes → Bytes → Multimap.Write Bytes Bytes} {mapId a b c d : I32}
    (hres : (MapType.tryFrom mapId).bind MapType.resource = some resource) :
    Declines (changeHeaderMapValue env change mapId a b c d) h := by
  unfold changeHeaderMapValue
  refine .bind fun mapType hfound => .bind fun _ _ => .bind fun _ _ => .bind fun _ _ =>
    .bind fun _ _ => .bind fun _ _ => .andThen (headerMap_write (resource_of_orStatus hres hfound))

/-- The path that the guest names is the one in its memory. -/
theorem readRange_of_looks {ptr : GuestPtr} {len : UInt32} {range : GuestSlice}
    {memory raw : Bytes} (hslice : (slice ptr len).run h = ⟨.ok range, h, []⟩)
    (hsplit : split.run h = ⟨.ok memory, h, []⟩)
    (hread : (readSlice memory range).run h = ⟨.ok raw, h, []⟩) :
    h.memory.bind (fun memory => (readRange len memory ptr).toOption) = some raw := by
  rw [memory_of_split hsplit, Option.bind_some]
  have hraw : readRange len memory ptr = .ok raw :=
    bind_eq_ok.2 ⟨range, ok_of_checked hslice, ok_of_checked hread⟩
  rw [hraw]
  rfl

/-- **A write of what the crate serves** is refused, and nothing happens. -/
theorem HostCall.write_refused (hwrites : function.writes h.memory = some resource) :
    ∃ exit, (function.run env).run h = ⟨exit, h, []⟩ ∧ exit ≠ .ok Status.ok.toI32 := by
  cases function with
  | proxySetHeaderMapPairs =>
    refine Declines.refused ?_
    unfold ProxyWasmHost.proxySetHeaderMapPairs
    exact .bind fun mapType hfound => .bind fun _ _ => .bind fun _ _ => .bind fun _ _ =>
      .bind fun _ _ => .bind fun _ _ => .andThen (headerMap_write (resource_of_orStatus hwrites hfound))
  | proxyAddHeaderMapValue a b c d e =>
    have hdeclines : Declines (ProxyWasmHost.proxyAddHeaderMapValue env a b c d e) h :=
      changeHeaderMapValue_declines hwrites
    exact hdeclines.refused
  | proxyReplaceHeaderMapValue a b c d e =>
    have hdeclines : Declines (ProxyWasmHost.proxyReplaceHeaderMapValue env a b c d e) h :=
      changeHeaderMapValue_declines hwrites
    exact hdeclines.refused
  | proxyRemoveHeaderMapValue =>
    refine Declines.refused ?_
    unfold ProxyWasmHost.proxyRemoveHeaderMapValue
    exact .bind fun mapType hfound => .bind fun _ _ => .bind fun _ _ => .bind fun _ _ =>
      .andThen (headerMap_write (resource_of_orStatus hwrites hfound))
  | proxySetBufferBytes =>
    refine Declines.refused ?_
    unfold ProxyWasmHost.proxySetBufferBytes
    exact .bind fun bufferType hfound => .bind fun _ _ => .bind fun _ _ => .bind fun _ _ =>
      .andThen (writeBuffer_declines (resource_of_orStatus hwrites hfound))
  | proxySetProperty =>
    refine Declines.refused ?_
    unfold ProxyWasmHost.proxySetProperty
    refine .bind fun path hslice => .bind fun _ _ => .bind fun memory hsplit => .bind fun raw hraw =>
      .bind fun _ _ => .bind fun _ _ => ?_
    have hpath := readRange_of_looks hslice hsplit hraw
    unfold HostCall.writes at hwrites
    dsimp only at hwrites
    rw [hpath] at hwrites
    exact setProperty_declines hwrites
  | _ => cases hwrites

/-! ## Reads of what no delivery carries -/

theorem headerMap_absent (hres : mapType.resource = some resource)
    (habsent : ∀ d, h.abi.delivery = some d → d.carries resource = false) :
    Declines (headerMap env mapType .read) h := by
  obtain ⟨which, hserves, rfl⟩ := MapType.serves_of_resource hres
  have hnone : h.abi.delivery.bind (·.map which) = none := by
    cases hdelivery : h.abi.delivery with
    | none => rfl
    | some d => simpa [Delivery.carries] using habsent d hdelivery
  unfold headerMap
  rw [hserves]
  refine .bind fun delivery hdelivery => ?_
  cases hdelivery
  dsimp only
  rw [hnone]
  exact .of_fail

theorem readBuffer_absent (hres : bufferType.resource = some resource)
    (hof : resource.ofDelivery = true)
    (habsent : ∀ d, h.abi.delivery = some d → d.carries resource = false) :
    Declines (readBuffer env bufferType) h := by
  obtain ⟨which, hserves, rfl⟩ := BufferType.serves_of_resource hres
  cases which with
  | vmConfiguration | pluginConfiguration => cases hof
  | delivered which =>
    have hnone : h.abi.delivery.bind (·.buffer which) = none := by
      cases hdelivery : h.abi.delivery with
      | none => rfl
      | some d => simpa [Delivery.carries] using habsent d hdelivery
    unfold readBuffer
    rw [hserves]
    refine .bind fun delivery hdelivery => ?_
    cases hdelivery
    rw [hnone]
    exact .andThen .of_fail

/-- **A read of what no delivery carries** is refused, and nothing happens. -/
theorem HostCall.read_refused (hreads : function.reads = some resource)
    (hof : resource.ofDelivery = true)
    (habsent : ∀ d, h.abi.delivery = some d → d.carries resource = false) :
    ∃ exit, (function.run env).run h = ⟨exit, h, []⟩ ∧ exit ≠ .ok Status.ok.toI32 := by
  cases function with
  | proxyGetHeaderMapSize =>
    refine Declines.refused ?_
    unfold ProxyWasmHost.proxyGetHeaderMapSize
    exact .bind fun mapType hfound => .bind fun _ _ => .bind fun _ _ =>
      .andThen (headerMap_absent (resource_of_orStatus hreads hfound) habsent)
  | proxyGetHeaderMapPairs =>
    refine Declines.refused ?_
    unfold ProxyWasmHost.proxyGetHeaderMapPairs
    exact .bind fun mapType hfound => .bind fun _ _ => .bind fun _ _ => .bind fun _ _ =>
      .andThen (headerMap_absent (resource_of_orStatus hreads hfound) habsent)
  | proxyGetHeaderMapValue =>
    refine Declines.refused ?_
    unfold ProxyWasmHost.proxyGetHeaderMapValue
    exact .bind fun mapType hfound => .bind fun _ _ => .bind fun _ _ => .bind fun _ _ =>
      .bind fun _ _ => .bind fun _ _ =>
        .andThen (headerMap_absent (resource_of_orStatus hreads hfound) habsent)
  | proxyGetBufferBytes =>
    refine Declines.refused ?_
    unfold ProxyWasmHost.proxyGetBufferBytes
    exact .bind fun bufferType hfound => .bind fun _ _ => .bind fun _ _ => .bind fun _ _ =>
      .andThen (readBuffer_absent (resource_of_orStatus hreads hfound) hof habsent)
  | proxyGetBufferStatus =>
    refine Declines.refused ?_
    unfold ProxyWasmHost.proxyGetBufferStatus
    exact .bind fun bufferType hfound => .bind fun _ _ => .bind fun _ _ => .bind fun _ _ =>
      .andThen (readBuffer_absent (resource_of_orStatus hreads hfound) hof habsent)
  | _ => cases hreads

/-! ## Reads of a delivery -/

section Reads

variable {d : Delivery} {memory bytes : Bytes} {returnData returnSize : GuestPtr}

theorem headerMap_delivered {which : DeliveredMap} {pairs : List Pair}
    (hdelivery : h.abi.delivery = some d) (hserves : servesMap mapType = some which)
    (hmap : d.map which = some pairs) :
    (headerMap env mapType .read).run h = ⟨.ok (vecHeaderMap pairs), h, []⟩ := by
  unfold headerMap
  rw [hserves]
  refine (bind_of_ok_nil (a := h.abi.delivery) (r := h) rfl).trans ?_
  dsimp only
  rw [hdelivery, Option.bind_some, hmap]
  rfl

theorem readBuffer_delivered {which : DeliveredBuffer} (hdelivery : h.abi.delivery = some d)
    (hserves : servedBuffer bufferType = .crate (.delivered which))
    (hbuffer : d.buffer which = some bytes) :
    (readBuffer env bufferType).run h = ⟨.ok (.crate bytes), h, []⟩ := by
  unfold readBuffer
  rw [hserves]
  refine (bind_of_ok_nil (a := h.abi.delivery) (r := h) rfl).trans ?_
  rw [hdelivery, Option.bind_some, hbuffer]
  rfl

/-- The return pointers of a call are in the memory of the guest. -/
structure Pointers (h : HostState) (memory : Bytes) (returnData returnSize : GuestPtr) : Prop where
  memory_eq : h.memory = some memory
  data : ∃ found, readU32 memory returnData = .ok found
  size : ∃ found, readU32 memory returnSize = .ok found

/-- **What the guest reads of a delivery**: the encoding of each map, its size and the values of
    its keys, and the ranges of each buffer and its size. -/
structure Delivery.ReadBy (d : Delivery) (env : Env) (h : HostState) : Prop where
  pairs : ∀ mapId mapType which pairs bytes memory returnData returnSize address h₁ memory₁ u,
    MapType.tryFrom mapId = some mapType → servesMap mapType = some which →
    d.map which = some pairs → encodePairs pairs = .ok bytes →
    Pointers h memory returnData returnSize →
    Room env.allocator h memory bytes.length address h₁ memory₁ u →
    ∃ memory', Returned memory₁ bytes address returnData returnSize memory' ∧
      ((HostCall.proxyGetHeaderMapPairs mapId returnData returnSize).run env).run h =
        ⟨.ok Status.ok.toI32, h₁.setMemory memory', u⟩
  size : ∀ mapId mapType which pairs bytes memory returnSize,
    MapType.tryFrom mapId = some mapType → servesMap mapType = some which →
    d.map which = some pairs → encodePairs pairs = .ok bytes → bytes.length < 2 ^ 31 →
    Pointers h memory returnSize returnSize →
    ∃ memory', readU32 memory' returnSize = .ok (UInt32.ofNat bytes.length) ∧
      ((HostCall.proxyGetHeaderMapSize mapId returnSize).run env).run h =
        ⟨.ok Status.ok.toI32, h.setMemory memory', []⟩
  value : ∀ mapId mapType which pairs key value memory keyData keySize returnData returnSize address
      h₁ memory₁ u,
    MapType.tryFrom mapId = some mapType → servesMap mapType = some which →
    d.map which = some pairs → readRange keySize memory keyData = .ok key →
    (pairs.find? fun pair => pair.1 = key).map (·.2) = some value →
    Pointers h memory returnData returnSize →
    Room env.allocator h memory value.length address h₁ memory₁ u →
    ∃ memory', Returned memory₁ value address returnData returnSize memory' ∧
      ((HostCall.proxyGetHeaderMapValue mapId keyData keySize returnData returnSize).run env).run h =
        ⟨.ok Status.ok.toI32, h₁.setMemory memory', u⟩
  bytes : ∀ bufferId bufferType which bytes (start size : I32) memory returnData returnSize address
      h₁ memory₁ u,
    BufferType.tryFrom bufferId = some bufferType →
    servedBuffer bufferType = .crate (.delivered which) → d.buffer which = some bytes →
    start.toNat ≤ bytes.length → Pointers h memory returnData returnSize →
    Room env.allocator h memory (bytesFrom bytes start.toNat size.toNat).length address h₁ memory₁
      u →
    ∃ memory', Returned memory₁ (bytesFrom bytes start.toNat size.toNat) address returnData
        returnSize memory' ∧
      ((HostCall.proxyGetBufferBytes bufferId start size returnData returnSize).run env).run h =
        ⟨.ok Status.ok.toI32, h₁.setMemory memory', u⟩
  status : ∀ bufferId bufferType which bytes memory returnBufferSize returnUnused,
    BufferType.tryFrom bufferId = some bufferType →
    servedBuffer bufferType = .crate (.delivered which) → d.buffer which = some bytes →
    bytes.length < 2 ^ 31 → Pointers h memory returnBufferSize returnUnused →
    ∃ stored memory', GuestMemory.writeU32 memory returnBufferSize (UInt32.ofNat bytes.length) =
        .ok stored ∧ GuestMemory.writeU32 stored returnUnused 0 = .ok memory' ∧
      ((HostCall.proxyGetBufferStatus bufferId returnBufferSize returnUnused).run env).run h =
        ⟨.ok Status.ok.toI32, h.setMemory memory', []⟩

theorem proxyGetHeaderMapValue_run {mapId keyData keySize : I32} {map : HeaderMap}
    {key value : Bytes} (hid : MapType.tryFrom mapId = some mapType)
    (hpointers : Pointers h memory returnData returnSize)
    (hkey : readRange keySize memory keyData = .ok key)
    (hmap : (headerMap env mapType .read).run h = ⟨.ok map, h, []⟩)
    (hvalue : map.get key = some value) :
    (proxyGetHeaderMapValue env mapId keyData keySize returnData returnSize).run h =
      (env.writeReturn value returnData returnSize).run h := by
  obtain ⟨range, hrange, hread⟩ := bind_eq_ok.1 hkey
  obtain ⟨_, hdata⟩ := hpointers.data
  obtain ⟨_, hsize⟩ := hpointers.size
  have hlook : (orStatus (MapType.tryFrom mapId) .badArgument).run h = ⟨.ok mapType, h, []⟩ := by
    rw [hid]
    rfl
  have hslice : (slice keyData keySize).run h = ⟨.ok range, h, []⟩ := by
    unfold slice checked
    rw [hrange]
    rfl
  have hbytes : (readSlice memory range).run h = ⟨.ok key, h, []⟩ := by
    unfold readSlice checked
    rw [hread]
    rfl
  have hfound : (orStatus (map.get key) .notFound).run h = ⟨.ok value, h, []⟩ := by
    rw [hvalue]
    rfl
  unfold proxyGetHeaderMapValue
  rw [bind_of_ok_nil hlook, bind_of_ok_nil hslice, bind_of_ok_nil (split_run hpointers.memory_eq),
    bind_of_ok_nil (checkWord_of_ok hdata), bind_of_ok_nil (checkWord_of_ok hsize),
    bind_of_ok_nil hbytes, bind_of_ok_nil hmap, bind_of_ok_nil hfound]

theorem writeMemory_run {write : Bytes → Except MemoryError Bytes} {memory' : Bytes}
    (hmemory : h.memory = some memory) (hwrite : write memory = .ok memory') :
    (writeMemory write).run h = ⟨.ok (), h.setMemory memory', []⟩ := by
  unfold writeMemory
  rw [bind_of_ok_nil (split_run hmemory), hwrite]
  rfl

theorem writeU32_run {ptr : GuestPtr} {value : UInt32} {memory' : Bytes}
    (hmemory : h.memory = some memory)
    (hwrite : GuestMemory.writeU32 memory ptr value = .ok memory') :
    (ProxyWasmHost.writeU32 ptr value).run h = ⟨.ok (), h.setMemory memory', []⟩ :=
  writeMemory_run hmemory hwrite

theorem proxyGetBufferStatus_run {bufferId : I32} {source : Source}
    {returnBufferSize returnUnused : GuestPtr} (hid : BufferType.tryFrom bufferId = some bufferType)
    (hpointers : Pointers h memory returnBufferSize returnUnused)
    (hsource : (readBuffer env bufferType).run h = ⟨.ok source, h, []⟩)
    (hlen : source.len < 2 ^ 32) :
    ∃ stored memory', GuestMemory.writeU32 memory returnBufferSize (UInt32.ofNat source.len) =
        .ok stored ∧ GuestMemory.writeU32 stored returnUnused 0 = .ok memory' ∧
      (proxyGetBufferStatus env bufferId returnBufferSize returnUnused).run h =
        ⟨.ok (), h.setMemory memory', []⟩ := by
  obtain ⟨_, hsize⟩ := hpointers.data
  obtain ⟨_, hunused⟩ := hpointers.size
  obtain ⟨stored, hstore⟩ := writeU32_of_readU32 hsize le_rfl (UInt32.ofNat source.len)
  obtain ⟨memory', hlast⟩ := writeU32_of_readU32 hunused (length_of_writeU32 hstore).ge 0
  refine ⟨stored, memory', hstore, hlast, ?_⟩
  unfold proxyGetBufferStatus
  rw [bind_of_ok_nil (tryFrom_run hid), bind_of_ok_nil (split_run hpointers.memory_eq),
    bind_of_ok_nil (checkWord_of_ok hsize), bind_of_ok_nil (checkWord_of_ok hunused),
    bind_of_ok_nil hsource, require, Prog.require, if_pos hlen,
    bind_of_ok_nil (a := ()) (r := h) rfl, bind_of_ok_nil (writeU32_run hpointers.memory_eq hstore),
    writeU32_run (memory_setMemory hpointers.memory_eq stored) hlast, setMemory_setMemory]

/-- **A delivery that is lent is read.** -/
theorem Delivery.readBy (hdelivery : h.abi.delivery = some d) : d.ReadBy env h where
  pairs mapId mapType which pairs bytes memory returnData returnSize address h₁ memory₁ u hid hserves
      hmap hencode hpointers hroom := by
    obtain ⟨_, hdata⟩ := hpointers.data
    obtain ⟨_, hsize⟩ := hpointers.size
    obtain ⟨memory', hreturned, hrun⟩ := hroom.returns hpointers.memory_eq hdata hsize
    refine ⟨memory', hreturned, complete_of_ok ?_⟩
    rw [proxyGetHeaderMapPairs_run hid hpointers.memory_eq hdata hsize
      (headerMap_delivered hdelivery hserves hmap) hencode, Env.writeReturn, hrun]
    rfl
  size mapId mapType which pairs bytes memory returnSize hid hserves hmap hencode hfits hpointers := by
    obtain ⟨_, hsize⟩ := hpointers.size
    have hlength : encodedSizeOf (vecHeaderMap pairs) = bytes.length :=
      encodedSizeOf_of_encodeVisited rfl hencode
    obtain ⟨memory', hrun, hread⟩ := (proxyGetHeaderMapSize_run hid hpointers.memory_eq hsize
      (headerMap_delivered hdelivery hserves hmap)).1 (by omega)
    exact ⟨memory', hlength ▸ hread, complete_of_ok hrun⟩
  value mapId mapType which pairs key value memory keyData keySize returnData returnSize address h₁
      memory₁ u hid hserves hmap hkey hvalue hpointers hroom := by
    obtain ⟨_, hdata⟩ := hpointers.data
    obtain ⟨_, hsize⟩ := hpointers.size
    obtain ⟨memory', hreturned, hrun⟩ := hroom.returns hpointers.memory_eq hdata hsize
    refine ⟨memory', hreturned, complete_of_ok ?_⟩
    rw [proxyGetHeaderMapValue_run hid hpointers hkey (headerMap_delivered hdelivery hserves hmap)
      hvalue, Env.writeReturn, hrun]
  bytes bufferId bufferType which bytes start size memory returnData returnSize address h₁ memory₁ u
      hid hserves hbuffer hstart hpointers hroom := by
    obtain ⟨_, hdata⟩ := hpointers.data
    obtain ⟨_, hsize⟩ := hpointers.size
    obtain ⟨memory', hreturned, hrun⟩ := hroom.returns hpointers.memory_eq hdata hsize
    refine ⟨memory', hreturned, complete_of_ok ?_⟩
    rw [(proxyGetBufferBytes_run start size hid hpointers.memory_eq hdata hsize
      (readBuffer_delivered hdelivery hserves hbuffer)).1 hstart,
      (.crate : Source.Holds bytes _).copyRange_eq start.toNat_lt size.toNat_lt,
      Env.writeReturn, hrun]
    rfl
  status bufferId bufferType which bytes memory returnBufferSize returnUnused hid hserves hbuffer
      hlen hpointers := by
    obtain ⟨stored, memory', hstore, hlast, hrun⟩ := proxyGetBufferStatus_run hid hpointers
      (readBuffer_delivered hdelivery hserves hbuffer) (by change bytes.length < _; omega)
    exact ⟨stored, memory', hstore, hlast, complete_of_ok hrun⟩

end Reads

end ProxyWasmHost
