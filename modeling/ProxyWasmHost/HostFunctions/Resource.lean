/-
  The resources that the crate serves itself, and the calls that name one.
-/
import ProxyWasmHost.HostFunctions.Stream

namespace ProxyWasmHost

/-- What the crate serves itself: the maps and buffers of a delivery, the configurations,
    and the properties of the plugin. -/
inductive Resource where
  | map (which : DeliveredMap)
  | buffer (which : CrateBuffer)
  | property (which : WellKnown)

def MapType.resource : MapType → Option Resource
  | .httpCallResponseHeaders => some (.map .httpCallResponseHeaders)
  | .httpCallResponseTrailers => some (.map .httpCallResponseTrailers)
  | .grpcCallInitialMetadata => some (.map .grpcCallInitialMetadata)
  | .grpcCallTrailingMetadata => some (.map .grpcCallTrailingMetadata)
  | .httpRequestHeaders | .httpRequestTrailers | .httpResponseHeaders | .httpResponseTrailers =>
    none

def BufferType.resource : BufferType → Option Resource
  | .httpCallResponseBody => some (.buffer (.delivered .httpCallResponseBody))
  | .grpcCallMessage => some (.buffer (.delivered .grpcCallMessage))
  | .foreignFunctionArguments => some (.buffer (.delivered .foreignFunctionArguments))
  | .vmConfiguration => some (.buffer .vmConfiguration)
  | .pluginConfiguration => some (.buffer .pluginConfiguration)
  | .httpRequestBody | .httpResponseBody | .downstreamData | .upstreamData => none

/-- The resource at the path of a property. -/
def pathResource (path : List Bytes) : Option Resource :=
  if path = [pluginName] then some (.property .name)
  else if path = [pluginRootId] then some (.property .rootId)
  else if path = [pluginVmId] then some (.property .vmId)
  else none

/-- The resource that a method of the stream state would be asked for, or that a write is of. -/
def StreamOp.resource : StreamOp → Option Resource
  | .headerMap _ mapType | .writeMap mapType _ => mapType.resource
  | .buffer _ bufferType => bufferType.resource
  | .property path | .setProperty path _ => pathResource path
  | .continueStream _ | .closeStream _ | .sendLocalResponse _ | .callForeignFunction _ => none

/-! ## What the crate serves is no resource of the embedder -/

theorem MapType.resource_eq (mapType : MapType) :
    mapType.resource = (servesMap mapType).map .map := by
  cases mapType <;> rfl

theorem MapType.resource_of_none {mapType : MapType} (h : servesMap mapType = none) :
    mapType.resource = none := by
  rw [resource_eq, h]
  rfl

theorem BufferType.resource_of_embedder {bufferType : BufferType}
    (h : servedBuffer bufferType = .embedder) : bufferType.resource = none := by
  cases bufferType <;> first | rfl | cases h

theorem pathResource_of_embedder {path : List Bytes} (h : servedProperty path = .embedder) :
    pathResource path = none := by
  unfold servedProperty at h
  unfold pathResource
  split_ifs at h ⊢
  rfl

theorem served_of_pathResource {path : List Bytes} {resource : Resource}
    (h : pathResource path = some resource) : ∃ which, servedProperty path = .crate which := by
  unfold pathResource at h
  unfold servedProperty
  split_ifs at h ⊢ <;> exact ⟨_, rfl⟩

end ProxyWasmHost
