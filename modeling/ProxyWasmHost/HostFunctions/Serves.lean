/-
  Every host function follows `HostStep`, and leaves a guest that goes on unpoisoned.
-/
import ProxyWasmHost.HostFunctions.Step

namespace ProxyWasmHost

open Prog

/-! ## The helpers that only look at the state -/

section Quiet

variable {α : Type}

instance : Quiet hostSplit := by unfold hostSplit; infer_instance

instance : Quiet split := by unfold split; infer_instance

instance {status : Status} : Quiet (fail status : Body α) := by unfold fail; infer_instance

instance {o : Option α} {status : Status} : Quiet (orStatus o status) := by
  unfold orStatus; infer_instance

instance {c : Prop} [Decidable c] {status : Status} : Quiet (ProxyWasmHost.require c status) := by
  unfold ProxyWasmHost.require; infer_instance

instance {access : Except MemoryError α} : Quiet (checked access) := by
  unfold checked; infer_instance

instance {answer : Except Status α} : Quiet (fromEmbedder answer) := by
  unfold fromEmbedder
  split <;> infer_instance

instance {ptr : GuestPtr} {len : UInt32} : Quiet (slice ptr len) := by
  unfold slice; infer_instance

instance {memory : Bytes} {range : GuestSlice} : Quiet (readSlice memory range) := by
  unfold readSlice; infer_instance

instance {memory : Bytes} {ptr : GuestPtr} : Quiet (checkWord memory ptr) := by
  unfold checkWord; infer_instance

instance {pointer : Option GuestPtr} : Quiet (checkPointer pointer) := by
  unfold checkPointer
  split <;> infer_instance

instance {bytes : Bytes} : Quiet (guestPairs bytes) := by unfold guestPairs; infer_instance

instance {pairs : Except Codec.DecodeError (List Pair)} {failure : Status} :
    Quiet (decoded pairs failure) := by
  unfold decoded; infer_instance

instance {bytes : Bytes} : Quiet (metadata bytes) := by unfold metadata; infer_instance

instance {absent : Status} : Quiet (context absent) := by unfold context; infer_instance

instance {absent : Status} : Quiet (withStream absent) := by unfold withStream; infer_instance

instance {name : Bytes} {refusal : Status} : Quiet (withinNameBytes name refusal) := by
  unfold withinNameBytes; infer_instance

instance : Quiet withinSharedNames := by unfold withinSharedNames; infer_instance

instance {name : SharedName} : Quiet (withinSharedNamesUnlessHeld name) := by
  unfold withinSharedNamesUnlessHeld; infer_instance

instance {which : DeliveredMap} {access : Access} : Quiet (delivered which access) := by
  unfold delivered
  cases access <;> infer_instance

instance : Quiet pluginOf := by unfold pluginOf; infer_instance

instance {which : WellKnown} : Quiet (wellKnown which) := by
  cases which <;> unfold wellKnown <;> infer_instance

namespace Wasi

instance {access : Except MemoryError α} : Quiet (Wasi.fault access) := by
  unfold Wasi.fault; infer_instance

instance : Quiet Wasi.split := by unfold Wasi.split; infer_instance

instance quiet_regions : ∀ table, Quiet (regions table)
  | [] => by unfold regions; infer_instance
  | (ptr, len) :: table => by
    have := quiet_regions table
    unfold regions
    infer_instance

instance quiet_readAll {memory : Bytes} : ∀ entries, Quiet (readAll memory entries)
  | [] => by unfold readAll; infer_instance
  | entry :: entries => by
    have : Quiet (readAll memory entries) := quiet_readAll entries
    unfold readAll
    infer_instance

end Wasi

end Quiet

/-! ## Serving -/

/-- A type of failures, some of which unwind the guest call. -/
class Unwinding (ε : Type) where
  unwinds : ε → Bool

instance : Unwinding Error := ⟨Error.unwinds⟩

instance : Unwinding Failure := ⟨fun | .status _ => false | .unwind _ _ => true⟩

instance : Unwinding WasiErrno := ⟨fun _ => false⟩

open Unwinding

/-- **`m` serves**: from a guest that is not poisoned it follows `HostStep`, and leaves
    the guest so unless the guest call unwinds. -/
class Serves {ε α : Type} [Unwinding ε] (m : Prog HostState Event ε α) : Prop where
  follows : ∀ h : HostState, h.poisoned = false →
    Follows HostStep m (fun _ h' => h'.poisoned = false)
      (fun e h' => unwinds e = false → h'.poisoned = false) (fun _ => True) h

namespace Serves

variable {ε α β : Type} [Unwinding ε] {m n : Prog HostState Event ε α}
  {f : α → Prog HostState Event ε β} {h : HostState}

/-- What follows a serving program, from one state. -/
abbrev At (h : HostState) (m : Prog HostState Event ε α) : Prop :=
  Follows HostStep m (fun _ h' => h'.poisoned = false)
    (fun e h' => unwinds e = false → h'.poisoned = false) (fun _ => True) h

instance (priority := low) quiet [Quiet m] : Serves m :=
  ⟨fun _ live => .quiet (fun _ => live) (fun _ _ => live) trivial⟩

instance bind [hm : Serves m] [hf : ∀ a, Serves (f a)] : Serves (m >>= f) :=
  ⟨fun h live => .bind (hm.follows h live) fun a h' live' => (hf a).follows h' live'⟩

instance ite {c : Prop} [Decidable c] [Serves m] [Serves n] : Serves (if c then m else n) := by
  split <;> infer_instance

instance mapErr {m : Host α} [hm : Serves m] : Serves (Prog.mapErr Failure.ofError m) := by
  refine ⟨fun h live => .mapErr ((hm.follows h live).mono (fun _ _ hq => hq) ?_ fun _ hu => hu)⟩
  intro e h' he hstatus
  exact he (by cases e <;> first | rfl | exact hstatus)

instance setMemory {bytes : Bytes} :
    Serves (Prog.modify (·.setMemory bytes) : Prog HostState Event ε Unit) :=
  ⟨fun h live => .modify (.memory h _ _) live⟩

/-! ### The embedder -/

section Body

variable {m : Body α} {f : α → Body β}

/-- What `context` finds is the effective context of a root the guest did not reject. -/
theorem context_finds {absent : Status} :
    Finds (context absent) (fun c => h.abi.context = some c) h := .bind_read .orThrow

theorem withStream_finds {absent : Status} :
    Finds (withStream absent) (fun call => ∃ c, h.abi.context = some c ∧
      h.abi.streamState.isSome ∧ call = h.abi.invocation c) h :=
  context_finds.bind fun c hc => .bind_read <| .bind_read <| Finds.require.bind
    fun _ hlent => .pure ⟨c, hc, hlent, rfl⟩

/-- What comes after a look serves from the same state. -/
theorem bind_finds {P : α → Prop} (live : h.poisoned = false) (hm : Finds m P h)
    (hf : ∀ a, P a → At h (f a)) : At h (m >>= f) :=
  Follows.bind_finds hm hf (fun _ _ => live) trivial

/-- An operation of the stream state on no resource of the crate. -/
class Unserved (op : StreamOp) : Prop where
  resource : op.resource = none

instance {streamType : StreamType} : Unserved (.continueStream streamType) := ⟨rfl⟩

instance {streamType : StreamType} : Unserved (.closeStream streamType) := ⟨rfl⟩

instance {response : LocalResponse} : Unserved (.sendLocalResponse response) := ⟨rfl⟩

instance {request : ForeignCall} : Unserved (.callForeignFunction request) := ⟨rfl⟩

instance withStream_ask {absent : Status} {γ : Type} {op : Invocation → StreamOp}
    {answer : Invocation → Answer γ} {k : Invocation → γ → Body β}
    [hop : ∀ call, Unserved (op call)] [hk : ∀ call c, Serves (k call c)] :
    Serves (withStream absent >>= fun call => askStream call (op call) (answer call) >>= k call) := by
  refine ⟨fun h live => bind_finds live withStream_finds ?_⟩
  rintro _ ⟨c, hc, hlent, rfl⟩
  refine .bind (.bind_emit (.stream _ live hc hlent (hop _).resource) ?_) fun a h' live' => (hk _ a).follows h' live'
  exact .orPanic (fun _ _ => live) fun _ => trivial

instance writeMemory {write : Bytes → Except MemoryError Bytes} : Serves (writeMemory write) := by
  unfold ProxyWasmHost.writeMemory; infer_instance

instance writeU32 {ptr : GuestPtr} {value : UInt32} : Serves (writeU32 ptr value) := by
  unfold ProxyWasmHost.writeU32; infer_instance

instance writeU64 {ptr : GuestPtr} {value : UInt64} : Serves (writeU64 ptr value) := by
  unfold ProxyWasmHost.writeU64; infer_instance

end Body

end Serves

/-! ### The allocator -/

/-- Guest code follows `HostStep`, and fails only with errors that unwind. -/
class GuestRuns {α : Type} (m : Host α) : Prop where
  follows : ∀ h : HostState, h.poisoned = false →
    Follows HostStep m (fun _ h' => h'.poisoned = false) (fun e _ => e.unwinds = true)
      (fun _ => True) h

instance hostWrite_serves {write : Bytes → Except MemoryError Bytes} : Serves (hostWrite write) := by
  unfold hostWrite; infer_instance

section Allocator

variable {run : I32 → Host I32} [hrun : ∀ size, GuestRuns (run size)]

instance allocate_serves {size : UInt32} : Serves (allocate run size) := by
  refine ⟨fun h live => ?_⟩
  unfold allocate
  refine .bind_read (.bind_require (fun _ => ?_) fun _ _ => live)
  refine .bind_read (.bind_require (fun _ => ?_) fun _ _ => live)
  refine .bind_require (fun _ => ?_) fun _ _ => live
  refine .bind_attempt ((hrun size).follows h live) ?_ ?_
  · exact fun _ _ hlive => .bind_require (fun _ => .pure hlive) fun _ _ => hlive
  · intro e h' hunwinds
    refine .bind_modify (.poison h') (.throw fun he => ?_)
    cases (show e.unwinds = false from he).symm.trans hunwinds

instance writeToGuest_serves {bytes : Bytes} : Serves (writeToGuest run bytes) := by
  unfold writeToGuest
  infer_instance

instance writeData_serves {bytes : Bytes} {pointer : Option GuestPtr} :
    Serves (writeData run bytes pointer) := by
  cases pointer <;> unfold writeData <;> infer_instance

instance writtenSize_serves {bytes : Bytes} {written : Option UInt32} :
    Serves (writtenSize bytes written) := by
  cases written <;> unfold writtenSize <;> infer_instance

instance writeOptionalReturn_serves {bytes : Bytes} {returnData returnSize : Option GuestPtr} :
    Serves (writeOptionalReturn run bytes returnData returnSize) := by
  unfold writeOptionalReturn
  cases returnSize <;> infer_instance

instance writeReturn_serves {bytes : Bytes} {returnData returnSize : GuestPtr} :
    Serves (writeReturn run bytes returnData returnSize) := by
  unfold writeReturn
  infer_instance

end Allocator

end ProxyWasmHost
