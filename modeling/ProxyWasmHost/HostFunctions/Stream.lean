/-
  The host functions of the context, the tick, and the stream state: header maps,
  buffers, properties, local responses and foreign functions.
-/
import ProxyWasmHost.HostFunctions.Call

namespace ProxyWasmHost

open Codec

/-! ## The context and the tick -/

def proxyDone : Body Unit := do
  let contexts ← Prog.read (·.abi.contexts)
  let effective ← orStatus contexts.effective .notFound
  require contexts.done.1 .notFound
  Prog.act (fun _ => .acknowledged effective)
    (·.mapAbi fun abi => { abi with contexts := contexts.done.2 })

def proxySetEffectiveContext (contextId : I32) : Body Unit := do
  let id ← orStatus (Id.tryFrom contextId) .badArgument
  let contexts ← Prog.read (·.abi.contexts)
  let current ← orStatus contexts.effective .badArgument
  require (contexts.rootOf id = contexts.rootOf current) .badArgument
  require (¬ contexts.isRejected id) .badArgument
  let set := contexts.setEffective id
  require set.1 .badArgument
  Prog.modify (·.mapAbi fun abi => { abi with contexts := set.2 })

def proxySetTickPeriodMilliseconds (tickPeriod : I32) : Body Unit := do
  let effective ← context .badArgument
  let period := if tickPeriod.toNat > 0 then some tickPeriod.toNat else none
  let set ← Prog.read fun h => h.abi.contexts.setTickPeriod effective period
  require set.1 .badArgument
  Prog.modify (·.mapAbi fun abi =>
    let abi := { abi with contexts := set.2 }
    match abi.contexts.rootOf effective with
    | some root => abi.noteTickPeriod root period
    | none => abi)

/-! ## The stream -/

def proxyContinueStream (env : Env) (streamType : I32) : Body Unit := do
  let streamType ← orStatus (StreamType.tryFrom streamType) .badArgument
  let call ← withStream .unimplemented
  let answer ← askStream call (.continueStream streamType)
    (env.world.stream.continueStream call streamType)
  fromEmbedder answer

def proxyCloseStream (env : Env) (streamType : I32) : Body Unit := do
  let streamType ← orStatus (StreamType.tryFrom streamType) .badArgument
  let call ← withStream .unimplemented
  let answer ← askStream call (.closeStream streamType)
    (env.world.stream.closeStream call streamType)
  fromEmbedder answer

/-! ## Header maps -/

/-- How a `VecHeaderMap` of `pairs` answers. -/
def vecHeaderMap (pairs : List Pair) : HeaderMap where
  get key := (pairs.find? fun pair => pair.1 = key).map (·.2)
  source := .steady pairs
  set _ _ := .ok ()
  add _ _ := .ok ()
  remove _ := .ok ()
  replaceAll _ := .ok ()

/-- The map a delivery serves, which only a read finds. -/
def delivered (which : DeliveredMap) (access : Access) : Body HeaderMap := do
  let delivery ← Prog.read (·.abi.delivery)
  match access with
  | .write => fail .badArgument
  | .read => orStatus ((delivery.bind (·.map which)).map vecHeaderMap) .badArgument

def headerMap (env : Env) (mapType : MapType) (access : Access) : Body HeaderMap :=
  match servesMap mapType with
  | some which => delivered which access
  | none => do
    let call ← withStream .badArgument
    let answer ← askStream call (.headerMap access mapType)
      (env.world.stream.headerMap call access mapType)
    fromEmbedder answer

/-- The size the encoding of a map has, saturated at `usize::MAX`. -/
def encodedSizeOf (map : HeaderMap) : ℕ :=
  let pairs := map.source.first
  let size := pairs.foldl (fun size p => satAdd size (pairEncodedSize p.1.length p.2.length)) 0
  if pairs.length = 0 then 0 else satAdd countSize size

def proxyGetHeaderMapSize (env : Env) (mapId returnSize : I32) : Body Unit := do
  let mapType ← orStatus (MapType.tryFrom mapId) .badArgument
  checkWord (← split) returnSize
  let map ← headerMap env mapType .read
  let size := encodedSizeOf map
  require (size < 2 ^ 32) .internalFailure
  writeU32 returnSize (UInt32.ofNat size)

def proxyGetHeaderMapPairs (env : Env) (mapId returnData returnSize : I32) : Body Unit := do
  let mapType ← orStatus (MapType.tryFrom mapId) .badArgument
  let memory ← split
  checkWord memory returnData
  checkWord memory returnSize
  let map ← headerMap env mapType .read
  let bytes ← Prog.mapErr (fun _ => .status .serializationFailure)
    (Prog.ofExit (encodeVisited map.source))
  env.writeReturn bytes returnData returnSize

/-- Writes a map that the stream state lent for the call; the embedder may not allow it. -/
def changed (mapType : MapType) (map : HeaderMap) (write : Multimap.Write Bytes Bytes) :
    Body Unit := do
  let call ← withStream .badArgument
  let answer ← askStream call (.writeMap mapType write) (some (map.write write))
  Prog.ofExcept (answer.mapError fun _ => .status .badArgument)

/-- A decode that answers `failure` for a map that is malformed or over a limit. -/
def decoded (pairs : Except DecodeError (List Pair)) (failure : Status) : Body (List Pair) :=
  Prog.ofExcept (pairs.mapError fun _ => .status failure)

def proxySetHeaderMapPairs (env : Env) (mapId serializedPairsData serializedPairsSize : I32) :
    Body Unit := do
  let mapType ← orStatus (MapType.tryFrom mapId) .badArgument
  let range ← slice serializedPairsData serializedPairsSize
  let bytes ← readSlice (← split) range
  let pairs ← decoded (← guestPairs bytes) .badArgument
  let map ← headerMap env mapType .write
  changed mapType map (.replaceAll pairs)

def proxyGetHeaderMapValue (env : Env) (mapId keyData keySize returnData returnSize : I32) :
    Body Unit := do
  let mapType ← orStatus (MapType.tryFrom mapId) .badArgument
  let key ← slice keyData keySize
  let memory ← split
  checkWord memory returnData
  checkWord memory returnSize
  let key ← readSlice memory key
  let map ← headerMap env mapType .read
  let value ← orStatus (map.get key) .notFound
  env.writeReturn value returnData returnSize

/-- The functions that change one pair of a map with a key and a value. -/
def changeHeaderMapValue (env : Env) (change : Bytes → Bytes → Multimap.Write Bytes Bytes)
    (mapId keyData keySize valueData valueSize : I32) : Body Unit := do
  let mapType ← orStatus (MapType.tryFrom mapId) .badArgument
  let key ← slice keyData keySize
  let value ← slice valueData valueSize
  let memory ← split
  let key ← readSlice memory key
  let value ← readSlice memory value
  let map ← headerMap env mapType .write
  changed mapType map (change key value)

def proxyAddHeaderMapValue (env : Env) (mapId keyData keySize valueData valueSize : I32) :
    Body Unit :=
  changeHeaderMapValue env .add mapId keyData keySize valueData valueSize

def proxyReplaceHeaderMapValue (env : Env) (mapId keyData keySize valueData valueSize : I32) :
    Body Unit :=
  changeHeaderMapValue env .set mapId keyData keySize valueData valueSize

def proxyRemoveHeaderMapValue (env : Env) (mapId keyData keySize : I32) : Body Unit := do
  let mapType ← orStatus (MapType.tryFrom mapId) .badArgument
  let key ← slice keyData keySize
  let key ← readSlice (← split) key
  let map ← headerMap env mapType .write
  changed mapType map (.remove key)

/-! ## Buffers -/

def clampRange (len start size : ℕ) : ℕ × ℕ :=
  let start := min start len
  (start, min (satAdd start size) len)

/-- The bytes of one buffer, from the crate or from the stream state. -/
inductive Source where
  | crate (bytes : Bytes)
  | stream (buffer : Buffer)

def Source.len : Source → ℕ
  | .crate bytes => bytes.length
  | .stream buffer => buffer.len

def Source.copyRange (source : Source) (start size : ℕ) : Bytes :=
  let range := clampRange source.len start size
  match source with
  | .crate bytes => (bytes.take range.2).drop range.1
  | .stream buffer => buffer.copyRangeInto range.1 (range.2 - range.1)

inductive CrateBuffer where
  | vmConfiguration
  | pluginConfiguration
  | delivered (which : DeliveredBuffer)

def servedBuffer : BufferType → Served CrateBuffer
  | .vmConfiguration => .crate .vmConfiguration
  | .pluginConfiguration => .crate .pluginConfiguration
  | bufferType =>
    match servesBuffer bufferType with
    | some which => .crate (.delivered which)
    | none => .embedder

def readBuffer (env : Env) (bufferType : BufferType) : Body Source :=
  match servedBuffer bufferType with
  | .crate .vmConfiguration => do
    return .crate (← Prog.read (·.abi.services.vmConfiguration))
  | .crate .pluginConfiguration => do
    let root ← context .notFound
    let plugin ← orStatus (← Prog.read (·.abi.contexts.plugin root)) .notFound
    return .crate plugin.configuration
  | .crate (.delivered which) => do
    let delivery ← Prog.read (·.abi.delivery)
    let bytes ← orStatus (delivery.bind (·.buffer which)) .notFound
    return .crate bytes
  | .embedder => do
    -- The announced size is compared with the length for a warning only.
    Prog.modify (·.mapAbi fun abi => (abi.takeAnnounced bufferType).2)
    let call ← withStream .notFound
    let answer ← askStream call (.buffer .read bufferType)
      (env.world.stream.buffer call .read bufferType)
    return .stream (← fromEmbedder answer)

def writeBuffer (env : Env) (bufferType : BufferType) : Body Buffer :=
  match servedBuffer bufferType with
  | .crate _ => fail .notFound
  | .embedder => do
    let call ← withStream .notFound
    let answer ← askStream call (.buffer .write bufferType)
      (env.world.stream.buffer call .write bufferType)
    fromEmbedder answer

def proxyGetBufferBytes (env : Env) (bufferId start maxSize returnValueData returnValueSize : I32) :
    Body Unit := do
  let bufferType ← orStatus (BufferType.tryFrom bufferId) .badArgument
  let memory ← split
  checkWord memory returnValueData
  checkWord memory returnValueSize
  let source ← readBuffer env bufferType
  require (start.toNat ≤ source.len) .badArgument
  let bytes := source.copyRange start.toNat maxSize.toNat
  env.writeReturn bytes returnValueData returnValueSize

def proxySetBufferBytes (env : Env) (bufferId start size valueData valueSize : I32) :
    Body Unit := do
  let bufferType ← orStatus (BufferType.tryFrom bufferId) .badArgument
  let value ← slice valueData valueSize
  let value ← readSlice (← split) value
  let buffer ← writeBuffer env bufferType
  let range := clampRange buffer.len start.toNat size.toNat
  Prog.ofExcept ((buffer.replace range.1 (range.2 - range.1) value).mapError
    fun _ => .status .notFound)

def proxyGetBufferStatus (env : Env) (bufferId returnBufferSize returnUnused : I32) :
    Body Unit := do
  let bufferType ← orStatus (BufferType.tryFrom bufferId) .badArgument
  let memory ← split
  checkWord memory returnBufferSize
  checkWord memory returnUnused
  let source ← readBuffer env bufferType
  require (source.len < 2 ^ 32) .internalFailure
  writeU32 returnBufferSize (UInt32.ofNat source.len)
  writeU32 returnUnused 0

/-! ## Properties -/

/-- The segments of a property path, which a zero byte separates; one final zero byte
    counts for nothing. -/
def decodePath (data : Bytes) : List Bytes :=
  let trimmed := if data.getLast? = some 0 then data.dropLast else data
  if trimmed = [] then [] else trimmed.splitOn 0

inductive WellKnown where
  | name | rootId | vmId

/-- `b"plugin_name"`, `b"plugin_root_id"` and `b"plugin_vm_id"`. -/
def pluginName : Bytes := [112, 108, 117, 103, 105, 110, 95, 110, 97, 109, 101]
def pluginRootId : Bytes := [112, 108, 117, 103, 105, 110, 95, 114, 111, 111, 116, 95, 105, 100]
def pluginVmId : Bytes := [112, 108, 117, 103, 105, 110, 95, 118, 109, 95, 105, 100]

def servedProperty (path : List Bytes) : Served WellKnown :=
  if path = [pluginName] then .crate .name
  else if path = [pluginRootId] then .crate .rootId
  else if path = [pluginVmId] then .crate .vmId
  else .embedder

def pluginOf : Body PluginConfig := do
  let effective ← context .notFound
  orStatus (← Prog.read (·.abi.contexts.plugin effective)) .notFound

def wellKnown : WellKnown → Body Bytes
  | .vmId => Prog.read (·.abi.services.vmId)
  | .name => do return (← pluginOf).name
  | .rootId => do return (← pluginOf).rootId

/-- The value of a property, from the crate or from the stream state. -/
def property (env : Env) (path : List Bytes) : Body Bytes :=
  match servedProperty path with
  | .crate which => wellKnown which
  | .embedder => do
    let call ← withStream .notFound
    let answer ← askStream call (.property path) (env.world.stream.property call path)
    fromEmbedder answer

/-- Sets a property, which the crate refuses for its own. -/
def setProperty (env : Env) (path : List Bytes) (value : Bytes) : Body Unit :=
  match servedProperty path with
  | .crate _ => fail .notFound
  | .embedder => do
    let call ← withStream .notFound
    let answer ← askStream call (.setProperty path value)
      (env.world.stream.setProperty call path value)
    fromEmbedder answer

def proxyGetProperty (env : Env) (pathData pathSize returnValueData returnValueSize : I32) :
    Body Unit := do
  let path ← slice pathData pathSize
  let memory ← split
  checkWord memory returnValueData
  checkWord memory returnValueSize
  let raw ← readSlice memory path
  withinNameBytes raw .notFound
  let value ← property env (decodePath raw)
  env.writeReturn value returnValueData returnValueSize

def proxySetProperty (env : Env) (pathData pathSize valueData valueSize : I32) : Body Unit := do
  let path ← slice pathData pathSize
  let value ← slice valueData valueSize
  let memory ← split
  let raw ← readSlice memory path
  withinNameBytes raw .notFound
  let value ← readSlice memory value
  setProperty env (decodePath raw) value

/-! ## Local responses and foreign functions -/

def proxySendLocalResponse (env : Env)
    (statusCode statusCodeDetailsData statusCodeDetailsSize bodyData bodySize
      serializedHeadersData serializedHeadersSize grpcStatus : I32) : Body Unit := do
  let details ← slice statusCodeDetailsData statusCodeDetailsSize
  let body ← slice bodyData bodySize
  let headers ← slice serializedHeadersData serializedHeadersSize
  -- `-1` means that there is no gRPC status.
  let grpcStatus := if grpcStatus = 0xffffffff then none else some grpcStatus
  let memory ← split
  let details ← readSlice memory details
  let body ← readSlice memory body
  let headers ← readSlice memory headers
  let headers ← decoded (← guestPairs headers) .badArgument
  let response := ⟨statusCode, details, body, headers, grpcStatus⟩
  let call ← withStream .unimplemented
  let answer ← askStream call (.sendLocalResponse response)
    (env.world.stream.sendLocalResponse call response)
  fromEmbedder answer

/-- A return pointer, which the guest declines with the address zero. -/
def wanted (pointer : I32) : Option GuestPtr := if pointer = 0 then none else some pointer

/-- Stores the results of a foreign call; a refused one stores zeros. -/
def storeResults (write : Bytes → Body Unit) : Except Failure Bytes → Body Unit
  | .error refusal => do
    write []
    Prog.throw refusal
  | .ok results => write results

def proxyCallForeignFunction (env : Env)
    (nameData nameSize argumentsData argumentsSize returnResultsData returnResultsSize : I32) :
    Body Unit := do
  let name ← slice nameData nameSize
  let arguments ← slice argumentsData argumentsSize
  let dataPtr := wanted returnResultsData
  let sizePtr := wanted returnResultsSize
  let memory ← split
  Prog.mapErr .ofError (checkPointer dataPtr)
  Prog.mapErr .ofError (checkPointer sizePtr)
  let name ← readSlice memory name
  let arguments ← readSlice memory arguments
  let request := ⟨name, arguments⟩
  let call ← withStream .notFound
  let answer ← askStream call (.callForeignFunction request)
    (env.world.stream.callForeignFunction call request)
  let write (bytes : Bytes) : Body Unit :=
    Prog.mapErr .ofError (writeOptionalReturn env.allocator bytes dataPtr sizePtr)
  storeResults write (← Prog.attempt (fromEmbedder answer))

end ProxyWasmHost
