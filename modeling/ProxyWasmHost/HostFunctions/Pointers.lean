/-
  The pointers that a call of the guest names, and how a body checks them: it declines, or it
  goes on with every one of them valid.
-/
import ProxyWasmHost.HostFunctions.Delivered
import ProxyWasmHost.HostFunctions.Table

namespace ProxyWasmHost

open Prog GuestMemory

/-! ## The pointers of a call -/

/-- A part of the guest's memory that a call names: a range, or a word of 32 or of 64 bits. -/
inductive Pointer where
  | range (ptr : GuestPtr) (len : UInt32)
  | word (ptr : GuestPtr)
  | long (ptr : GuestPtr)

/-- The check of the bounds accepts a pointer. -/
def Pointer.Valid (memory : Option Bytes) : Pointer → Prop
  | .range ptr len => ∃ m bytes, memory = some m ∧ readRange len m ptr = .ok bytes
  | .word ptr => ∃ m value, memory = some m ∧ readU32 m ptr = .ok value
  | .long ptr => ∃ m value, memory = some m ∧ readU64 m ptr = .ok value

/-- The pointer of a result that the guest may decline. -/
def wantedWord (pointer : I32) : List Pointer := (wanted pointer).toList.map .word

/-- The pointers and ranges that a function of the ABI uses. -/
def HostCall.pointers : HostCall → List Pointer
  | .proxyLog _ data size => [.range data size]
  | .proxyGetLogLevel level => [.word level]
  | .proxyGetCurrentTimeNanoseconds time => [.long time]
  | .proxySetBufferBytes _ _ _ data size => [.range data size]
  | .proxyGetBufferBytes _ _ _ data size => [.word data, .word size]
  | .proxyGetBufferStatus _ size unused => [.word size, .word unused]
  | .proxyGetHeaderMapSize _ size => [.word size]
  | .proxyGetHeaderMapPairs _ data size => [.word data, .word size]
  | .proxySetHeaderMapPairs _ data size => [.range data size]
  | .proxyGetHeaderMapValue _ key keySize data size =>
    [.range key keySize, .word data, .word size]
  | .proxyAddHeaderMapValue _ key keySize value valueSize
  | .proxyReplaceHeaderMapValue _ key keySize value valueSize =>
    [.range key keySize, .range value valueSize]
  | .proxyRemoveHeaderMapValue _ key keySize => [.range key keySize]
  | .proxyGetStatus code data size => [.word code, .word data, .word size]
  | .proxySendLocalResponse _ details detailsSize body bodySize headers headersSize _ =>
    [.range details detailsSize, .range body bodySize, .range headers headersSize]
  | .proxyHttpCall upstream upstreamSize headers headersSize body bodySize trailers trailersSize
      _ callId =>
    [.range upstream upstreamSize, .range headers headersSize, .range body bodySize,
      .range trailers trailersSize, .word callId]
  | .proxyGrpcCall upstream upstreamSize service serviceSize method methodSize initial initialSize
      message messageSize _ callId =>
    [.range upstream upstreamSize, .range service serviceSize, .range method methodSize,
      .range initial initialSize, .range message messageSize, .word callId]
  | .proxyGrpcStream upstream upstreamSize service serviceSize method methodSize initial initialSize
      streamId =>
    [.range upstream upstreamSize, .range service serviceSize, .range method methodSize,
      .range initial initialSize, .word streamId]
  | .proxyGrpcSend _ message messageSize _ => [.range message messageSize]
  | .proxySetSharedData key keySize value valueSize _ =>
    [.range key keySize, .range value valueSize]
  | .proxyGetSharedData key keySize data size cas =>
    [.range key keySize, .word data, .word size, .word cas]
  | .proxyRegisterSharedQueue name nameSize queueId => [.range name nameSize, .word queueId]
  | .proxyResolveSharedQueue vmId vmIdSize name nameSize queueId =>
    [.range vmId vmIdSize, .range name nameSize, .word queueId]
  | .proxyEnqueueSharedQueue _ value valueSize => [.range value valueSize]
  | .proxyDequeueSharedQueue _ data size => [.word data, .word size]
  | .proxyDefineMetric _ name nameSize metricId => [.range name nameSize, .word metricId]
  | .proxyGetMetric _ value => [.long value]
  | .proxyGetProperty path pathSize data size => [.range path pathSize, .word data, .word size]
  | .proxySetProperty path pathSize value valueSize =>
    [.range path pathSize, .range value valueSize]
  | .proxyCallForeignFunction name nameSize arguments argumentsSize data size =>
    [.range name nameSize, .range arguments argumentsSize] ++ wantedWord data ++ wantedWord size
  | _ => []

/-! ## Bodies that check -/

variable {α : Type} {m : Body α} {f : α → Body Unit} {h : HostState} {pointers : List Pointer}
  {P : Res HostState Event Failure Unit → Prop} {memory : Bytes} {ptr : GuestPtr} {len : UInt32}

/-- **A body checks the pointers**: it declines, or they are valid and what it leaves is as `P`
    says. -/
def ChecksFirst (pointers : List Pointer) (P : Res HostState Event Failure Unit → Prop)
    (h : HostState) (body : Body Unit) : Prop :=
  Declines body h ∨ (∀ p ∈ pointers, p.Valid h.memory) ∧ P (body.run h)

namespace ChecksFirst

/-- A look, after which the rest checks. -/
theorem look [hm : Quiet m]
    (hf : ∀ a, m.run h = ⟨.ok a, h, []⟩ → ChecksFirst pointers P h (f a)) :
    ChecksFirst pointers P h (m >>= f) := by
  obtain ⟨exit, hrun⟩ := hm.looks h
  cases exit with
  | ok a =>
    rcases hf a hrun with ⟨exit, hrest, hexit⟩ | ⟨hvalid, hrest⟩
    · exact .inl ⟨exit, by rw [bind_of_ok_nil hrun, hrest], hexit⟩
    · exact .inr ⟨hvalid, by rwa [bind_of_ok_nil hrun]⟩
  | err e => exact .inl ⟨_, bind_of_err hrun, by rintro a ⟨⟩⟩
  | panicked => exact .inl ⟨_, bind_of_panicked hrun, by rintro a ⟨⟩⟩

/-- The pointers are checked, and the body goes on. -/
theorem acts {body : Body Unit} (hmemory : h.memory = some memory)
    (hvalid : pointers.Forall (·.Valid (some memory))) (hP : P (body.run h)) :
    ChecksFirst pointers P h body :=
  .inr ⟨hmemory ▸ List.forall_iff_forall_mem.1 hvalid, hP⟩

end ChecksFirst

/-! ## What the looks tell of the pointers -/

theorem valid_range {range : GuestSlice} {bytes : Bytes}
    (hslice : (slice ptr len).run h = ⟨.ok range, h, []⟩)
    (hread : (readSlice memory range).run h = ⟨.ok bytes, h, []⟩) :
    (Pointer.range ptr len).Valid (some memory) :=
  ⟨memory, bytes, rfl, bind_eq_ok.2 ⟨range, ok_of_checked hslice, ok_of_checked hread⟩⟩

theorem readU32_of_checkWord {u : Unit} (hcheck : (checkWord memory ptr).run h = ⟨.ok u, h, []⟩) :
    ∃ value, readU32 memory ptr = .ok value := by
  unfold checkWord at hcheck
  cases hread : readU32 memory ptr with
  | ok value => exact ⟨value, rfl⟩
  | error e =>
    rw [hread] at hcheck
    cases hcheck

theorem valid_word {u : Unit} (hcheck : (checkWord memory ptr).run h = ⟨.ok u, h, []⟩) :
    (Pointer.word ptr).Valid (some memory) := by
  obtain ⟨value, hread⟩ := readU32_of_checkWord hcheck
  exact ⟨memory, value, rfl, hread⟩

theorem valid_long {value : UInt64}
    (hcheck : (checked (readU64 memory ptr)).run h = ⟨.ok value, h, []⟩) :
    (Pointer.long ptr).Valid (some memory) :=
  ⟨memory, value, rfl, ok_of_checked hcheck⟩

/-- The check of a pointer that may be declined. -/
theorem validPointer_of_check {pointer : Option GuestPtr} {u : Unit}
    (hmemory : h.memory = some memory)
    (hcheck : (Prog.mapErr Failure.ofError (checkPointer pointer)).run h = ⟨.ok u, h, []⟩) :
    ValidPointer memory pointer := by
  obtain ⟨exit, hrun, hvalid⟩ : Finds (checkPointer pointer)
      (fun _ => ValidPointer memory pointer) h := finds_checkPointer hmemory
  simp only [Prog.mapErr, hrun] at hcheck
  cases exit with
  | ok a => exact hvalid a rfl
  | err e => cases hcheck
  | panicked => cases hcheck

theorem valid_wanted {pointer : I32} (hvalid : ValidPointer memory (wanted pointer)) :
    ∀ p ∈ wantedWord pointer, p.Valid (some memory) := by
  unfold wantedWord
  intro p hp
  obtain ⟨ptr, hptr, rfl⟩ := List.mem_map.1 hp
  rw [Option.mem_toList] at hptr
  obtain ⟨value, hread⟩ := hvalid ptr hptr
  exact ⟨memory, value, rfl, hread⟩

end ProxyWasmHost
