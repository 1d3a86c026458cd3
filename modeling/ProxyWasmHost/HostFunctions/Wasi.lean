/-
  The log and the clock of the ABI, and the WASI functions.
-/
import ProxyWasmHost.HostFunctions.Call

namespace ProxyWasmHost

open LittleEndian

/-! ## The log and the clock of the ABI -/

/-- Gives a line to the log sink. -/
def writeLog {ε : Type} (env : Env) (level : LogLevel) (message : Bytes) :
    Prog HostState Event ε Unit := do
  let context ← Prog.read (·.abi.logContext)
  Prog.emit fun _ => .logged context level message
  Prog.orPanic (env.world.log context level message)

def proxyLog (env : Env) (logLevel messageData messageSize : I32) : Body Unit := do
  let level ← orStatus (LogLevel.tryFrom logLevel) .badArgument
  let range ← slice messageData messageSize
  let message ← readSlice (← split) range
  let max ← Prog.read (·.limits.maxLogBytes)
  writeLog env level (message.take (max.getD message.length))

def proxyGetLogLevel (returnLogLevel : I32) : Body Unit := do
  let _ ← split
  let level ← Prog.read (·.abi.services.logLevel)
  writeU32 returnLogLevel level.toI32

def proxyGetCurrentTimeNanoseconds (env : Env) (returnTime : I32) : Body Unit := do
  let _ ← split
  let now ← Prog.orPanic env.world.realtimeNanos
  writeU64 returnTime now

/-! ## WASI -/

inductive WasiErrno where
  | success | badf | fault | inval | notsup
  deriving DecidableEq

def WasiErrno.toI32 : WasiErrno → I32
  | .success => 0 | .badf => 8 | .fault => 21 | .inval => 28 | .notsup => 58

/-- The body of a WASI function. -/
abbrev Wasi (α : Type) := Prog HostState Event WasiErrno α

def maxIovecs : ℕ := 1024
def iovecSize : ℕ := 8
def maxRandomBytes : ℕ := 64 * 1024

namespace Wasi

def fault {α : Type} (access : Except MemoryError α) : Wasi α :=
  Prog.ofExcept (access.mapError fun _ => .fault)

def split : Wasi Bytes := Prog.mapErr (fun _ => .fault) hostSplit

def write (write : Bytes → Except MemoryError Bytes) : Wasi Unit := do
  let memory ← fault (write (← split))
  Prog.modify (·.setMemory memory)

/-- The regions of a scatter table. -/
def regions : List (ℕ × ℕ) → Wasi (List GuestSlice)
  | [] => return []
  | (ptr, len) :: table => do
    let entry ← fault (GuestSlice.new (UInt32.ofNat ptr) (UInt32.ofNat len))
    let entries ← regions table
    return entry :: entries

def readAll (memory : Bytes) : List GuestSlice → Wasi Unit
  | [] => return ()
  | entry :: entries => do
    let _ ← fault (GuestMemory.read memory entry)
    readAll memory entries

/-- The bytes of the regions in order, as far as `budget` has room. -/
def gather (memory : Bytes) (budget : ℕ) : List GuestSlice → Bytes → Wasi Bytes
  | [], message => return message
  | entry :: entries, message => do
    let room := budget - message.length
    if room = 0 then return message
    else
      let bytes ← fault (GuestMemory.read memory entry)
      gather memory budget entries (message ++ bytes.take room)

def fdWrite (env : Env) (fd iovs iovsLen nwritten : I32) : Wasi Unit := do
  let level ← Prog.orThrow
    (if fd = 1 then some LogLevel.info else if fd = 2 then some LogLevel.error else none) .badf
  let memory ← split
  let _ ← fault (GuestMemory.readU32 memory nwritten)
  -- A count that is negative as an `i32` is no `u32`.
  Prog.require (iovsLen.toNat < 2 ^ 31) .fault
  let count := iovsLen.toNat
  Prog.require (count ≤ maxIovecs) .inval
  let table ← fault (GuestSlice.new iovs (UInt32.ofNat (count * iovecSize)))
  let table ← fault (GuestMemory.read memory table)
  let entries ← regions (Codec.readTable table)
  readAll memory entries
  let total := (entries.map fun entry => entry.len.toNat).sum
  let max ← Prog.read (·.limits.maxLogBytes)
  let message ← gather memory (max.getD memory.length) entries []
  let message := if message.getLast? = some 10 then message.dropLast else message
  if count > 0 then writeLog env level message
  write (GuestMemory.writeU32 · nwritten (UInt32.ofNat (min total u32Max)))

def clockTimeGet (env : Env) (id time : I32) : Wasi Unit := do
  Prog.require (id = 0 ∨ id = 1) .notsup
  let _ ← split
  let nanos ← Prog.orPanic
    (if id = 0 then env.world.realtimeNanos else env.world.monotonicNanos)
  write (GuestMemory.writeU64 · time nanos)

def randomGet (env : Env) (buf len : I32) : Wasi Unit := do
  let slice ← fault (GuestSlice.new buf len)
  Prog.require (slice.len.toNat ≤ maxRandomBytes) .inval
  let memory ← split
  let _ ← fault (GuestMemory.read memory slice)
  let bytes ← Prog.orThrow (env.world.random slice.len.toNat) .inval
  write (GuestMemory.write · slice (bytes.takeD slice.len.toNat 0))

/-- One variable of the environment block, `key=value` and a zero byte. -/
def environmentEntry (entry : Pair) : Bytes := entry.1 ++ [61] ++ entry.2 ++ [0]

def environmentBlock (environment : List Pair) : Bytes := environment.flatMap environmentEntry

def environSizesGet (countPtr sizePtr : I32) : Wasi Unit := do
  let _ ← split
  let environment ← Prog.read (·.abi.services.environment)
  Prog.require (environment.length < 2 ^ 32) .fault
  let size := (environmentBlock environment).length
  Prog.require (size < 2 ^ 32) .fault
  write (GuestMemory.writeU32 · countPtr (UInt32.ofNat environment.length))
  write (GuestMemory.writeU32 · sizePtr (UInt32.ofNat size))

/-- The addresses of the variables, the first at `offset`. -/
def environPointers : List Pair → ℕ → Wasi Bytes
  | [], _ => return []
  | (key, value) :: environment, offset => do
    let entryLen := key.length + value.length + 2
    Prog.require (entryLen < 2 ^ 32) .fault
    Prog.require (offset + entryLen < 2 ^ 32) .fault
    let pointers ← environPointers environment (offset + entryLen)
    return toBytes 4 offset ++ pointers

def writeBlock (start : GuestPtr) (block : Bytes) : Wasi Unit := do
  Prog.require (block.length < 2 ^ 32) .fault
  let slice ← fault (GuestSlice.new start (UInt32.ofNat block.length))
  write (GuestMemory.write · slice block)

def environGet (array buffer : I32) : Wasi Unit := do
  let _ ← split
  let environment ← Prog.read (·.abi.services.environment)
  let pointers ← environPointers environment buffer.toNat
  writeBlock array pointers
  writeBlock buffer (environmentBlock environment)

def argsSizesGet (argc size : I32) : Wasi Unit := do
  let _ ← split
  write (GuestMemory.writeU32 · argc 0)
  write (GuestMemory.writeU32 · size 0)

end Wasi

end ProxyWasmHost
