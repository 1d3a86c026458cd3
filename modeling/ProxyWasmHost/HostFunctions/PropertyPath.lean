/-
  Serialization of a property path, and which byte strings name a property of the crate.
-/
import ProxyWasmHost.HostFunctions.Stream

namespace ProxyWasmHost

/-! ## Splitting and joining -/

section Split

variable {α : Type} [BEq α] [LawfulBEq α] {x : α} {xs segment : List α}

end Split

/-! ## The codec -/

/-- Joins segments with a zero byte and adds no trailing byte. -/
def encodePath (segments : List Bytes) : Bytes := [(0 : UInt8)].intercalate segments

/-- The data without one final zero byte, if it has one. -/
def strip (data : Bytes) : Bytes := if data.getLast? = some 0 then data.dropLast else data

section Codec

variable {data data' : Bytes} {segments : List Bytes}

theorem decodePath_eq (data : Bytes) :
    decodePath data = if strip data = [] then [] else (strip data).splitOn 0 := rfl

theorem encodePath_decodePath (data : Bytes) : encodePath (decodePath data) = strip data := by
  rw [decodePath_eq]
  split
  · rename_i hempty
    rw [hempty]
    rfl
  · exact List.intercalate_splitOn 0

end Codec

/-! ## The properties of the crate -/

/-- The name of a property that the crate serves. -/
def WellKnown.path : WellKnown → Bytes
  | .name => pluginName
  | .rootId => pluginRootId
  | .vmId => pluginVmId

section Served

variable {env : Env} {raw value : Bytes} {which : WellKnown}

end Served

/-- Two final zero bytes leave one empty segment. -/
example : decodePath [102, 111, 111, 0, 0] = [[102, 111, 111], []] := by decide

end ProxyWasmHost
