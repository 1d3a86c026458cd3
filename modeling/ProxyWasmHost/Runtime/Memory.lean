/-
  Bounds checked access to guest memory, and the writes that follow an allocation
  inside the guest.
-/
import ProxyWasmHost.Lib.Prog
import ProxyWasmHost.State.Event

namespace ProxyWasmHost

open LittleEndian

/-- One address in guest memory. -/
abbrev GuestPtr := UInt32

/-- A range in guest memory whose end fits in 32 bits. -/
structure GuestSlice where
  ptr : GuestPtr
  len : UInt32
  fits : ptr.toNat + len.toNat < 2 ^ 32

namespace GuestSlice

def new (ptr : GuestPtr) (len : UInt32) : Except MemoryError GuestSlice :=
  if h : ptr.toNat + len.toNat < 2 ^ 32 then .ok ⟨ptr, len, h⟩
  else .error (.rangeOverflow ptr.toNat len.toNat)

/-- Refuses a range outside a memory of `memorySize` bytes. -/
def bounds (slice : GuestSlice) (memorySize : ℕ) : Except MemoryError Unit :=
  if slice.ptr.toNat + slice.len.toNat > memorySize then
    .error (.outOfBounds slice.ptr.toNat slice.len.toNat memorySize)
  else .ok ()

end GuestSlice

/-! ## The bytes of a memory -/

namespace GuestMemory

def read (memory : Bytes) (slice : GuestSlice) : Except MemoryError Bytes := do
  slice.bounds memory.length
  return (memory.drop slice.ptr.toNat).take slice.len.toNat

def write (memory : Bytes) (slice : GuestSlice) (bytes : Bytes) : Except MemoryError Bytes := do
  if bytes.length ≠ slice.len.toNat then
    .error (.lengthMismatch slice.len.toNat bytes.length)
  slice.bounds memory.length
  return memory.take slice.ptr.toNat ++ bytes ++ memory.drop (slice.ptr.toNat + slice.len.toNat)

def readU32 (memory : Bytes) (ptr : GuestPtr) : Except MemoryError UInt32 := do
  let bytes ← read memory (← GuestSlice.new ptr 4)
  return UInt32.ofNat (ofBytes bytes)

def writeU32 (memory : Bytes) (ptr : GuestPtr) (value : UInt32) : Except MemoryError Bytes := do
  write memory (← GuestSlice.new ptr 4) (toBytes 4 value.toNat)

def readU64 (memory : Bytes) (ptr : GuestPtr) : Except MemoryError UInt64 := do
  let bytes ← read memory (← GuestSlice.new ptr 8)
  return UInt64.ofNat (ofBytes bytes)

def writeU64 (memory : Bytes) (ptr : GuestPtr) (value : UInt64) : Except MemoryError Bytes := do
  write memory (← GuestSlice.new ptr 8) (toBytes 8 value.toNat)

end GuestMemory

/-! ## How a host function body ends -/

/-- Why a host function body did not answer `OK`. -/
inductive Failure where
  /-- The guest receives this status. -/
  | status (status : Status)
  /-- The guest call unwinds with this error, and the instance is poisoned. -/
  | unwind (error : Error) (unwinds : error.unwinds)
  deriving DecidableEq

/-- Host code that runs while the guest is being called, and fails with an `Error`. -/
abbrev Host (α : Type) := Prog HostState Event Error α

/-- The body of a host function. -/
abbrev Body (α : Type) := Prog HostState Event Failure α

def Failure.ofError : Error → Failure
  | .memory _ => .status .invalidMemoryAccess
  | .valueTooLarge _ | .allocationFailed _ => .status .internalFailure
  | .missingMemory => .unwind .missingMemory rfl
  | .missingAllocator => .unwind .missingAllocator rfl
  | .trap message => .unwind (.trap message) rfl
  | .limitExceeded limit => .unwind (.limitExceeded limit) rfl
  | .guestExit code => .unwind (.guestExit code) rfl
  | .poisoned => .unwind .poisoned rfl

def fail {α : Type} (status : Status) : Body α := Prog.throw (.status status)

/-- The value, or the status `failure` answers for its absence. -/
def orStatus {α : Type} (value : Option α) (status : Status) : Body α :=
  Prog.orThrow value (.status status)

def require (c : Prop) [Decidable c] (status : Status) : Body Unit :=
  Prog.require c (.status status)

/-- A memory access of a body. -/
def checked {α : Type} (access : Except MemoryError α) : Body α :=
  Prog.ofExcept (access.mapError fun _ => .status .invalidMemoryAccess)

/-- What a service answered: a refusal with `OK`, for a resource it never changed, is
    a failure of its own. -/
def fromEmbedder {α : Type} : Except Status α → Body α
  | .ok value => Prog.pure value
  | .error .ok => fail .internalFailure
  | .error status => fail status

/-! ## The memory of the running guest -/

/-- The memory, or the failure of an instance that has no handle to it yet. -/
def hostSplit : Host Bytes := do
  Prog.orThrow (← Prog.read (·.memory)) .missingMemory

def hostWrite (write : Bytes → Except MemoryError Bytes) : Host Unit := do
  let memory ← Prog.ofExcept ((write (← hostSplit)).mapError .memory)
  Prog.modify (·.setMemory memory)

def split : Body Bytes := Prog.mapErr .ofError hostSplit

/-- Replaces the memory by what `write` makes of it. -/
def writeMemory (write : Bytes → Except MemoryError Bytes) : Body Unit := do
  let memory ← checked (write (← split))
  Prog.modify (·.setMemory memory)

def slice (ptr : GuestPtr) (len : UInt32) : Body GuestSlice := checked (GuestSlice.new ptr len)

/-! ## Allocation inside the guest -/

/-- Asks the guest allocator, which `run` runs, for `size` bytes. A failure inside it
    poisons the state. -/
def allocate (run : I32 → Host I32) (size : UInt32) : Host GuestPtr := do
  Prog.require (¬ (← Prog.read (·.poisoned))) .poisoned
  Prog.require (← Prog.read (·.allocator)) .missingAllocator
  Prog.require (size.toNat < 2 ^ 31) (.valueTooLarge size.toNat)
  match ← Prog.attempt (run size) with
  | .error error =>
    Prog.modify HostState.poison
    Prog.throw error
  | .ok address =>
    Prog.require (address ≠ 0) (.allocationFailed size.toNat)
    return address

/-- Allocates room for `bytes` in the guest and copies them there. -/
def writeToGuest (run : I32 → Host I32) (bytes : Bytes) : Host (GuestPtr × UInt32) := do
  Prog.require (bytes.length < 2 ^ 32) (.valueTooLarge bytes.length)
  let len := UInt32.ofNat bytes.length
  if len = 0 then return (0, 0)
  let address ← allocate run len
  let slice ← Prog.ofExcept ((GuestSlice.new address len).mapError .memory)
  hostWrite (GuestMemory.write · slice bytes)
  return (slice.ptr, slice.len)

/-- Refuses a return pointer outside the memory. -/
def checkPointer (pointer : Option GuestPtr) : Host Unit := do
  match pointer with
  | some pointer =>
    let _ ← Prog.ofExcept ((GuestMemory.readU32 (← hostSplit) pointer).mapError Error.memory)
  | none => return ()

/-- Copies `bytes` into the guest when it wants their address, and stores that. -/
def writeData (run : I32 → Host I32) (bytes : Bytes) : Option GuestPtr → Host (Option UInt32)
  | some pointer => do
    let written ← writeToGuest run bytes
    hostWrite (GuestMemory.writeU32 · pointer written.1)
    return some written.2
  | none => return none

/-- The size of `bytes`, as `written` when they were copied. -/
def writtenSize (bytes : Bytes) : Option UInt32 → Host UInt32
  | some len => return len
  | none => do
    Prog.require (bytes.length < 2 ^ 32) (.valueTooLarge bytes.length)
    return UInt32.ofNat bytes.length

/-- Writes `bytes` into the guest only when the guest asked for them, and stores the
    address and the size at the return pointers it gave. -/
def writeOptionalReturn (run : I32 → Host I32) (bytes : Bytes)
    (returnData returnSize : Option GuestPtr) : Host Unit := do
  let _ ← hostSplit
  checkPointer returnData
  checkPointer returnSize
  let written ← writeData run bytes returnData
  match returnSize with
  | some pointer =>
    let len ← writtenSize bytes written
    hostWrite (GuestMemory.writeU32 · pointer len)
  | none => return ()

/-- Writes `bytes` into the guest and stores the address and the size at the two
    return pointers. -/
def writeReturn (run : I32 → Host I32) (bytes : Bytes) (returnData returnSize : GuestPtr) :
    Body Unit :=
  Prog.mapErr .ofError (writeOptionalReturn run bytes (some returnData) (some returnSize))

end ProxyWasmHost
