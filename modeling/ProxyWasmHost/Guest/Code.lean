/-
  What a guest call does, and how it runs.
-/
import ProxyWasmHost.HostFunctions.Table

namespace ProxyWasmHost

/-- How guest code fails by itself: it traps, or it spends a limit. -/
inductive GuestFault where
  | trap (message : String)
  | limitExceeded (limit : Limit)
  deriving DecidableEq

def GuestFault.toError : GuestFault → Error
  | .trap message => .trap message
  | .limitExceeded limit => .limitExceeded limit

/-- The behaviour of guest code from one point on, whatever the module computes: it
    returns, it fails, or it calls a host function and goes on with the answer and
    the memory it then finds. `memory` is the memory as the guest leaves it. While a
    host function runs, the embedder answers as `world` says, and the guest's
    allocator is the code for the size it is asked for. -/
inductive Code where
  | ret (memory : Bytes) (value : I32)
  | unwind (fault : GuestFault)
  | call (memory : Bytes) (function : HostCall) (world : World) (allocator : I32 → Code)
      (next : I32 → Bytes → Code)

/-- Runs guest code until it returns or unwinds. -/
def Code.exec : Code → Host I32
  | .ret memory value => do
    Prog.modify (·.setMemory memory)
    return value
  | .unwind fault => Prog.throw fault.toError
  | .call memory function world allocator next => do
    Prog.modify (·.setMemory memory)
    Prog.emit fun h => .called h.abi
    let answer ← function.run ⟨world, fun size => (allocator size).exec⟩
    let memory ← Prog.read (·.memory.getD [])
    (next answer memory).exec

/-- Calls the guest: a failure poisons the state. -/
def callTyped (code : Code) : Host I32 := do
  Prog.require (¬ (← Prog.read (·.poisoned))) .poisoned
  match ← Prog.attempt code.exec with
  | .ok value => return value
  | .error error =>
    Prog.modify HostState.poison
    Prog.throw error

end ProxyWasmHost
