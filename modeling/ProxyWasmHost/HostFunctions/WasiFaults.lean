/-
  What is left of the memory of the guest when a function of WASI answers an error.
-/
import ProxyWasmHost.HostFunctions.FdWrite

namespace ProxyWasmHost

open Prog GuestMemory LittleEndian

/-- The calls of WASI that write the memory of the guest. -/
inductive WasiWrite
  | fdWrite (fd iovs iovsLen nwritten : I32)
  | clockTimeGet (id : I32) (precision : I64) (time : I32)
  | environSizesGet (countPtr sizePtr : I32)
  | environGet (array buffer : I32)
  | argsSizesGet (argc size : I32)

def WasiWrite.call : WasiWrite → HostCall
  | .fdWrite fd iovs iovsLen nwritten => .fdWrite fd iovs iovsLen nwritten
  | .clockTimeGet id precision time => .clockTimeGet id precision time
  | .environSizesGet countPtr sizePtr => .environSizesGet countPtr sizePtr
  | .environGet array buffer => .environGet array buffer
  | .argsSizesGet argc size => .argsSizesGet argc size

/-- With an errno other than success the memory is still `memory`, and no line was logged. -/
def Faultless (memory : Bytes) (r : Res HostState Event HostError I32) : Prop :=
  ∀ code, r.exit = .ok code → code ≠ WasiErrno.success.toI32 →
    r.state.memory = some memory ∧
      ∀ context level message, Event.logged context level message ∉ r.trace

namespace Wasi

variable {h : HostState} {memory : Bytes} {body : Wasi Unit} {env : Env}

theorem errno_fault_ne_success : WasiErrno.fault.toI32 ≠ WasiErrno.success.toI32 := by decide

/-- A body that leaves everything as it was where it fails. -/
theorem faultless_of_leaves (hmemory : h.memory = some memory)
    (hbody : Leaves body (fun _ _ _ => True) (fun _ t h' => t = [] ∧ h' = h) (fun _ _ => True) h) :
    Faultless memory ((errno body).run h) := by
  intro code hexit hcode
  unfold Leaves at hbody
  cases hrun : body.run h with
  | mk exit h' t =>
    rw [hrun] at hbody
    cases exit with
    | ok u =>
      rw [errno_of_ok hrun] at hexit
      exact absurd (Exit.ok.inj hexit).symm hcode
    | err error =>
      obtain ⟨rfl, rfl⟩ := hbody
      rw [errno_of_err hrun]
      exact ⟨hmemory, fun _ _ _ => List.not_mem_nil⟩
    | panicked =>
      rw [errno_of_panicked hrun] at hexit
      cases hexit

/-- **Two places** are written or none, unless the second is outside the memory and the first is
    changed. -/
theorem faultless_iff {p q : GuestPtr × Bytes} (hmemory : h.memory = some memory)
    (hbody : body.run h = putBoth h memory p q) :
    Faultless memory ((errno body).run h) ↔
      (Inside memory p.1 p.2.length → ¬ Inside memory q.1 q.2.length →
        bytesAt memory p.1.toNat p.2.length = p.2) := by
  unfold putBoth at hbody
  by_cases hp : Inside memory p.1 p.2.length
  · rw [if_pos hp] at hbody
    by_cases hq : Inside memory q.1 q.2.length
    · rw [if_pos hq] at hbody
      rw [errno_of_ok hbody]
      refine iff_of_true (fun code hexit hcode => ?_) fun _ hout => absurd hq hout
      exact absurd (Exit.ok.inj hexit).symm hcode
    · -- The first place is written, and then the second is refused.
      rw [if_neg hq] at hbody
      rw [errno_of_err hbody, ← putAt_eq_self hp]
      have hleft := memory_setMemory hmemory (putAt memory p.1 p.2)
      constructor
      · intro hfault _ _
        have hsame := (hfault _ rfl errno_fault_ne_success).1
        exact Option.some.inj (hleft.symm.trans hsame)
      · intro hsame code _ _
        refine ⟨hleft.trans (congrArg some (hsame hp hq)), fun _ _ _ => List.not_mem_nil⟩
  · rw [if_neg hp] at hbody
    rw [errno_of_err hbody]
    refine iff_of_true (fun code _ _ => ⟨hmemory, fun _ _ _ => List.not_mem_nil⟩) fun hin => ?_
    exact absurd hin hp

theorem faultless_putPlaces_iff {ps : Option ((GuestPtr × Bytes) × (GuestPtr × Bytes))}
    (hmemory : h.memory = some memory) (hbody : body.run h = putPlaces h memory ps) :
    Faultless memory ((errno body).run h) ↔
      ∀ p q, ps = some (p, q) → Inside memory p.1 p.2.length → ¬ Inside memory q.1 q.2.length →
        bytesAt memory p.1.toNat p.2.length = p.2 := by
  cases ps with
  | none =>
    rw [errno_of_err hbody]
    refine iff_of_true (fun code _ _ => ⟨hmemory, fun _ _ _ => List.not_mem_nil⟩) ?_
    rintro p q ⟨⟩
  | some ps =>
    obtain ⟨p, q⟩ := ps
    rw [faultless_iff hmemory hbody]
    constructor
    · rintro hplaces p' q' ⟨⟩
      exact hplaces
    · exact fun hplaces => hplaces p q rfl

/-- `clock_time_get` has one place to write, and fails only before it does. -/
theorem clockTimeGet_leaves (hmemory : h.memory = some memory) (id time : I32) :
    Leaves (clockTimeGet env id time) (fun _ _ _ => True) (fun _ t h' => t = [] ∧ h' = h)
      (fun _ _ => True) h := by
  unfold clockTimeGet
  refine Leaves.bind_require (fun _ => ?_) fun _ => ⟨rfl, rfl⟩
  refine Leaves.bind_ok (split_of_some hmemory) ?_
  generalize (if id = 0 then env.world.realtimeNanos else env.world.monotonicNanos) = answer
  cases answer with
  | none =>
    unfold Leaves
    rw [bind_of_panicked (r := h) (t := []) rfl]
    trivial
  | some nanos =>
    have hnanos : (Prog.orPanic (some nanos) : Wasi UInt64).run h = ⟨.ok nanos, h, []⟩ := rfl
    refine Leaves.bind_ok hnanos ?_
    unfold Leaves
    cases hwrite : GuestMemory.writeU64 memory time nanos with
    | ok memory' =>
      rw [write_of_ok hmemory hwrite]
      trivial
    | error error =>
      rw [write_of_error hmemory hwrite]
      exact ⟨rfl, rfl⟩

end Wasi

/-- **A failed call of WASI changes nothing**, unless its first place is inside the memory and
    has other bytes, and its second is not inside. -/
theorem wasi_faults (env : Env) (h : HostState) (memory : Bytes) (hmemory : h.memory = some memory)
    (w : WasiWrite) :
    Faultless memory ((w.call.run env).run h) ↔
      ∀ p q, Wasi.places h.abi.services.environment w.call = some (p, q) →
        Inside memory p.1 p.2.length → ¬ Inside memory q.1 q.2.length →
        bytesAt memory p.1.toNat p.2.length = p.2 := by
  cases w with
  | fdWrite fd iovs iovsLen nwritten =>
    refine iff_of_true ?_ (by rintro p q ⟨⟩)
    exact Wasi.faultless_of_leaves hmemory ((Wasi.fdWrite_leaves env fd iovs iovsLen nwritten
      hmemory).mono (fun _ _ _ _ => trivial) (fun _ _ _ hsame => hsame) fun _ _ _ => trivial)
  | clockTimeGet id precision time =>
    refine iff_of_true ?_ (by rintro p q ⟨⟩)
    exact Wasi.faultless_of_leaves hmemory (Wasi.clockTimeGet_leaves hmemory id time)
  | environSizesGet countPtr sizePtr =>
    exact Wasi.faultless_putPlaces_iff hmemory (Wasi.environSizesGet_run hmemory countPtr sizePtr)
  | environGet array buffer =>
    exact Wasi.faultless_putPlaces_iff hmemory (Wasi.environGet_run hmemory array buffer)
  | argsSizesGet argc size =>
    exact Wasi.faultless_putPlaces_iff hmemory (Wasi.argsSizesGet_run hmemory argc size)

/-- One page of memory, with no byte that is zero. -/
def onePage : Bytes := List.replicate 65536 1

/-- A guest with one page of memory. -/
def pageOfOnes : HostState :=
  { HostState.new ⟨.unlimited, none, none, none, 0⟩ (.new 0 ⟨[], .info, [], [], 1, 2⟩)
    with memory := some onePage }

theorem inside_onePage {ptr : GuestPtr} {size : ℕ} :
    Inside onePage ptr size ↔ ptr.toNat + size ≤ 65536 := by
  rw [Inside, onePage, List.length_replicate]
  omega

/-- With both places inside the memory the call does not fail. -/
theorem wasi_faults_inside_page : Faultless onePage
    (((WasiWrite.argsSizesGet 0 4).call.run ⟨.refusing, fun _ => pure 0⟩).run pageOfOnes) := by
  refine (wasi_faults ⟨.refusing, fun _ => pure 0⟩ pageOfOnes onePage rfl
    (.argsSizesGet 0 4)).2 ?_
  rintro p q ⟨⟩ _ hout
  exact absurd (inside_onePage.2 (by decide)) hout

/-- The count is written although the place of the size, just after the page, is refused. -/
theorem count_written_on_fault : ¬ ∀ (env : Env) (h : HostState) (memory : Bytes),
    h.memory = some memory → ∀ w : WasiWrite, Faultless memory ((w.call.run env).run h) := by
  intro hclaim
  have hmemory : pageOfOnes.memory = some onePage := rfl
  have hfaultless := hclaim ⟨.refusing, fun _ => pure 0⟩ pageOfOnes onePage hmemory
    (.argsSizesGet 0 65536)
  have herrno : (WasiWrite.argsSizesGet 0 65536).call.run ⟨.refusing, fun _ => pure 0⟩ =
      errno (Wasi.argsSizesGet 0 65536) := rfl
  rw [herrno, Wasi.faultless_putPlaces_iff hmemory (Wasi.argsSizesGet_run hmemory 0 65536)]
    at hfaultless
  have hbytes : bytesAt onePage 0 4 = [0, 0, 0, 0] :=
    hfaultless (0, [0, 0, 0, 0]) (65536, [0, 0, 0, 0]) rfl (inside_onePage.2 (by decide))
      (mt inside_onePage.1 (by decide))
  rw [bytesAt, onePage, List.drop_zero, List.take_replicate] at hbytes
  exact absurd hbytes (by decide)

end ProxyWasmHost
