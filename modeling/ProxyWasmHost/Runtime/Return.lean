/-
  How bytes are returned to the guest: the allocation, the copy, and the two words that
  say where the bytes are and how many.
-/
import ProxyWasmHost.Runtime.Access

namespace ProxyWasmHost

open Prog LittleEndian

namespace GuestMemory

variable {memory memory' memory₁ bytes : Bytes} {ptr : GuestPtr} {len value : UInt32}

/-! ## Reads and writes that do not meet -/

/-- The cells of two accesses do not meet. -/
def Apart (ptr : GuestPtr) (len : ℕ) (ptr' : GuestPtr) (len' : ℕ) : Prop :=
  ptr.toNat + len ≤ ptr'.toNat ∨ ptr'.toNat + len' ≤ ptr.toNat

/-- What is read of a memory is read of one that has the same bytes there. -/
theorem readRange_of_same (h : readRange len memory ptr = .ok bytes)
    (hlength : memory'.length = memory.length)
    (hsame : ∀ i, ptr.toNat ≤ i → i < ptr.toNat + len.toNat → memory'[i]? = memory[i]?) :
    readRange len memory' ptr = .ok bytes := by
  obtain ⟨hfits, hinside, rfl⟩ := readRange_ok.1 h
  refine readRange_ok.2 ⟨hfits, hlength ▸ hinside, ?_⟩
  refine List.ext_getElem? fun i => ?_
  simp only [List.getElem?_take, List.getElem?_drop]
  split
  · exact (hsame _ (by omega) (by omega)).symm
  · rfl

theorem writeU32_eq (memory : Bytes) (ptr : GuestPtr) (value : UInt32) :
    writeU32 memory ptr value = writeRange 4 memory ptr (toBytes 4 value.toNat) := rfl

/-- A write leaves what is read elsewhere. -/
theorem readRange_of_writeRange {ptr' : GuestPtr} {len' : UInt32} {bytes' : Bytes}
    (hread : readRange len memory ptr = .ok bytes)
    (hwrite : writeRange len' memory ptr' bytes' = .ok memory')
    (hapart : Apart ptr len.toNat ptr' len'.toNat) :
    readRange len memory' ptr = .ok bytes := by
  obtain ⟨hlength, -, hframe⟩ := changes_of_writeRange hwrite
  refine readRange_of_same hread hlength fun i hlow hhigh => hframe i ?_
  unfold Apart at hapart
  omega

theorem readU32_of_writeU32 (hwrite : writeU32 memory ptr value = .ok memory') :
    readU32 memory' ptr = .ok value :=
  readU32_ok.2 ⟨_, (changes_of_writeRange hwrite).2.1, ofBytes_u32 value⟩

theorem length_of_writeU32 (hwrite : writeU32 memory ptr value = .ok memory') :
    memory'.length = memory.length :=
  (changes_of_writeRange hwrite).1

/-- Where a word can be read, a word can be written, in this memory and in one that is no
    shorter. -/
theorem writeU32_of_readU32 {found : UInt32} (hread : readU32 memory ptr = .ok found)
    (hgrown : memory.length ≤ memory₁.length) (value : UInt32) :
    ∃ memory', writeU32 memory₁ ptr value = .ok memory' := by
  obtain ⟨bytes, hbytes, -⟩ := readU32_ok.1 hread
  obtain ⟨hfits, hinside, -⟩ := readRange_ok.1 hbytes
  exact ⟨_, writeRange_ok.2 ⟨length_toBytes _ _, hfits, hinside.trans hgrown, rfl⟩⟩

/-- The same of a word of 64 bits. -/
theorem writeU64_of_readU64 {found : UInt64} (hread : readU64 memory ptr = .ok found)
    (hgrown : memory.length ≤ memory₁.length) (value : UInt64) :
    ∃ memory', writeU64 memory₁ ptr value = .ok memory' := by
  obtain ⟨bytes, hbytes, -⟩ := readU64_ok.1 hread
  obtain ⟨hfits, hinside, -⟩ := readRange_ok.1 hbytes
  exact ⟨_, writeRange_ok.2 ⟨length_toBytes _ _, hfits, hinside.trans hgrown, rfl⟩⟩

/-! ## What a return leaves -/

/-- A memory in which bytes were copied to `address`, and their address and their number
    stored at the two return pointers. -/
def Returned (memory bytes : Bytes) (address returnData returnSize : GuestPtr)
    (memory' : Bytes) : Prop :=
  ∃ copied stored, writeRange (UInt32.ofNat bytes.length) memory address bytes = .ok copied ∧
    writeU32 copied returnData address = .ok stored ∧
    writeU32 stored returnSize (UInt32.ofNat bytes.length) = .ok memory'

/-- **What is returned is read back**, where the cells do not meet. -/
theorem Returned.reads {address returnData returnSize : GuestPtr}
    (h : Returned memory bytes address returnData returnSize memory')
    (hwords : Apart returnData 4 returnSize 4)
    (hdata : Apart address (UInt32.ofNat bytes.length).toNat returnData 4)
    (hsize : Apart address (UInt32.ofNat bytes.length).toNat returnSize 4) :
    readU32 memory' returnData = .ok address ∧
      readU32 memory' returnSize = .ok (UInt32.ofNat bytes.length) ∧
      readRange (UInt32.ofNat bytes.length) memory' address = .ok bytes := by
  obtain ⟨copied, stored, hcopy, hstore, hlast⟩ := h
  have hcopied := (changes_of_writeRange hcopy).2.1
  have hkept := readRange_of_writeRange hcopied (writeU32_eq .. ▸ hstore) hdata
  refine ⟨?_, readU32_of_writeU32 hlast, readRange_of_writeRange hkept (writeU32_eq .. ▸ hlast) hsize⟩
  obtain ⟨word, hword, hvalue⟩ := readU32_ok.1 (readU32_of_writeU32 hstore)
  refine readU32_ok.2 ⟨word, readRange_of_writeRange hword (writeU32_eq .. ▸ hlast) ?_, hvalue⟩
  exact hwords

end GuestMemory

/-! ## The allocator -/

section Allocator

open GuestMemory

variable {run : I32 → Host I32} {h h₁ : HostState} {memory memory₁ bytes : Bytes}
  {address returnData returnSize : GuestPtr} {t : List Event} {size : ℕ}

/-- **The allocator works** for `size` bytes, and leaves the guest `h₁`. Nothing needs no
    block. -/
inductive Allocates (run : I32 → Host I32) (h : HostState) :
    ℕ → GuestPtr → HostState → List Event → Prop
  | nothing : Allocates run h 0 0 h []
  | block {size : ℕ} {address : GuestPtr} {h₁ : HostState} {t : List Event}
      (live : h.poisoned = false) (exported : h.allocator = true) (pos : 0 < size)
      (fits : size < 2 ^ 31) (found : address ≠ 0)
      (ran : (run (UInt32.ofNat size)).run h = ⟨.ok address, h₁, t⟩) :
      Allocates run h size address h₁ t

theorem Allocates.size_lt (halloc : Allocates run h size address h₁ t) : size < 2 ^ 31 := by
  cases halloc with
  | nothing => exact Nat.two_pow_pos 31
  | block live exported pos fits => exact fits

theorem Allocates.eq_of_zero (halloc : Allocates run h 0 address h₁ t) :
    address = 0 ∧ h₁ = h ∧ t = [] := by
  cases halloc with
  | nothing => exact ⟨rfl, rfl, rfl⟩
  | block live exported pos fits found ran => exact absurd pos (lt_irrefl 0)

theorem Allocates.ran (halloc : Allocates run h size address h₁ t) (pos : 0 < size) :
    (run (UInt32.ofNat size)).run h = ⟨.ok address, h₁, t⟩ := by
  cases halloc with
  | nothing => exact absurd pos (lt_irrefl 0)
  | block live exported pos fits found ran => exact ran

theorem setMemory_self (hmemory : h.memory = some memory) : h.setMemory memory = h := by
  unfold HostState.setMemory
  rw [hmemory, Option.map_some, ← hmemory]

theorem setMemory_setMemory (h : HostState) (memory memory' : Bytes) :
    (h.setMemory memory).setMemory memory' = h.setMemory memory' := by
  unfold HostState.setMemory
  cases h.memory <;> rfl

theorem memory_setMemory (hmemory : h.memory = some memory) (memory' : Bytes) :
    (h.setMemory memory').memory = some memory' := by
  unfold HostState.setMemory
  rw [hmemory]
  rfl

theorem hostSplit_of_some (hmemory : h.memory = some memory) :
    hostSplit.run h = ⟨.ok memory, h, []⟩ := by
  unfold hostSplit
  rw [bind_of_ok_nil (a := h.memory) (r := h) rfl, hmemory]
  rfl

theorem hostWrite_of_error {write : Bytes → Except MemoryError Bytes} {error : MemoryError}
    (hmemory : h.memory = some memory) (hwrite : write memory = .error error) :
    (hostWrite write).run h = ⟨.err (.memory error), h, []⟩ := by
  unfold hostWrite
  rw [bind_of_ok_nil (hostSplit_of_some hmemory), hwrite]
  rfl

theorem hostWrite_of_ok {write : Bytes → Except MemoryError Bytes} {memory' : Bytes}
    (hmemory : h.memory = some memory) (hwrite : write memory = .ok memory') :
    (hostWrite write).run h = ⟨.ok (), h.setMemory memory', []⟩ := by
  unfold hostWrite
  rw [bind_of_ok_nil (hostSplit_of_some hmemory), hwrite]
  rfl

theorem allocate_of_allocates (pos : 0 < size)
    (halloc : Allocates run h size address h₁ t) :
    (allocate run (UInt32.ofNat size)).run h = ⟨.ok address, h₁, t⟩ := by
  cases halloc with
  | nothing => exact absurd pos (lt_irrefl 0)
  | block live exported pos fits found ran =>
    have hsize : (UInt32.ofNat size).toNat < 2 ^ 31 := by
      rw [UInt32.toNat_ofNat']
      exact (Nat.mod_le _ _).trans_lt fits
    unfold allocate
    rw [bind_of_ok_nil (a := h.poisoned) (r := h) rfl, live, Prog.require, if_pos (by decide),
      bind_of_ok_nil (a := ()) (r := h) rfl, bind_of_ok_nil (a := h.allocator) (r := h) rfl,
      exported, Prog.require, if_pos rfl, bind_of_ok_nil (a := ()) (r := h) rfl, Prog.require,
      if_pos hsize, bind_of_ok_nil (a := ()) (r := h) rfl]
    have hattempt : (Prog.attempt (run (UInt32.ofNat size)) : Host _).run h =
        ⟨.ok (.ok address), h₁, t⟩ := by
      simp only [Prog.attempt, ran]
    rw [bind_of_ok hattempt]
    dsimp only
    rw [Prog.require, if_pos found]
    exact congrArg (Res.mk _ _) (List.append_nil t)

/-- **Bytes are copied** into the block the allocator found. -/
theorem writeToGuest_of_allocates (halloc : Allocates run h bytes.length address h₁ t)
    (hmemory : h₁.memory = some memory₁) {copied : Bytes}
    (hcopy : writeRange (UInt32.ofNat bytes.length) memory₁ address bytes = .ok copied) :
    (writeToGuest run bytes).run h =
      ⟨.ok (address, UInt32.ofNat bytes.length), h₁.setMemory copied, t⟩ := by
  have hlen : bytes.length < 2 ^ 31 := halloc.size_lt
  unfold writeToGuest
  rw [Prog.require, if_pos (by omega), bind_of_ok_nil (a := ()) (r := h) rfl]
  dsimp only
  by_cases hzero : bytes.length = 0
  · rw [List.length_eq_zero_iff] at hzero
    subst hzero
    cases halloc with
    | nothing =>
      have hself : copied = memory₁ := by simpa using (writeRange_ok.1 hcopy).2.2.2
      rw [hself, setMemory_self hmemory]
      rfl
    | block live exported pos => exact absurd pos (lt_irrefl 0)
  · have hne : ¬ UInt32.ofNat bytes.length = 0 := by
      intro heq
      have := congrArg UInt32.toNat heq
      rw [UInt32.toNat_ofNat', Nat.mod_eq_of_lt (by omega)] at this
      exact hzero this
    rw [if_neg hne, bind_of_ok (allocate_of_allocates (Nat.pos_of_ne_zero hzero) halloc)]
    obtain ⟨slice, hslice, hwrite⟩ := bind_eq_ok.1 hcopy
    obtain ⟨rfl, hlen'⟩ := new_eq_ok.1 hslice
    have hrest : (do
        let slice ← Prog.ofExcept ((GuestSlice.new slice.ptr (UInt32.ofNat bytes.length)).mapError
          Error.memory)
        hostWrite (GuestMemory.write · slice bytes)
        return (slice.ptr, slice.len) : Host _).run h₁ =
        ⟨.ok (slice.ptr, UInt32.ofNat bytes.length), h₁.setMemory copied, []⟩ := by
      rw [hslice]
      show (hostWrite (GuestMemory.write · slice bytes) >>= fun _ =>
        Prog.pure (slice.ptr, slice.len)).run h₁ = _
      rw [bind_of_ok_nil (hostWrite_of_ok hmemory hwrite), ← hlen']
      rfl
    rw [hrest, List.append_nil]

theorem checkPointer_of_ok {value : UInt32} (hmemory : h.memory = some memory) {pointer : GuestPtr}
    (hread : readU32 memory pointer = .ok value) :
    (checkPointer (some pointer)).run h = ⟨.ok (), h, []⟩ := by
  unfold checkPointer
  dsimp only
  rw [bind_of_ok_nil (hostSplit_of_some hmemory), hread]
  rfl

/-- **A return** with valid pointers and an allocator that works answers, and leaves the bytes
    where the two words say. -/
theorem writeReturn_of_allocates {data length : UInt32} (hmemory : h.memory = some memory)
    (hdata : readU32 memory returnData = .ok data) (hsize : readU32 memory returnSize = .ok length)
    (halloc : Allocates run h bytes.length address h₁ t) (hmemory₁ : h₁.memory = some memory₁)
    (hgrown : memory.length ≤ memory₁.length) (hfits : address.toNat + bytes.length < 2 ^ 32)
    (hroom : address.toNat + bytes.length ≤ memory₁.length) :
    ∃ memory', Returned memory₁ bytes address returnData returnSize memory' ∧
      (writeReturn run bytes returnData returnSize).run h =
        ⟨.ok (), h₁.setMemory memory', t⟩ := by
  have hlen : (UInt32.ofNat bytes.length).toNat = bytes.length := by
    rw [UInt32.toNat_ofNat', Nat.mod_eq_of_lt (by omega)]
  have hcopy : ∃ copied, writeRange (UInt32.ofNat bytes.length) memory₁ address bytes =
      .ok copied := ⟨_, writeRange_ok.2 ⟨hlen.symm, hlen.symm ▸ hfits, hlen.symm ▸ hroom, rfl⟩⟩
  obtain ⟨copied, hcopy⟩ := hcopy
  have hcopied := (changes_of_writeRange hcopy).1
  obtain ⟨stored, hstore⟩ := writeU32_of_readU32 hdata
    (by omega : memory.length ≤ copied.length) address
  have hstored := length_of_writeU32 hstore
  obtain ⟨memory', hlast⟩ := writeU32_of_readU32 hsize
    (by omega : memory.length ≤ stored.length) (UInt32.ofNat bytes.length)
  refine ⟨memory', ⟨copied, stored, hcopy, hstore, hlast⟩, ?_⟩
  have hwritten := writeToGuest_of_allocates halloc hmemory₁ hcopy
  have hdone : (writeData run bytes (some returnData)).run h =
      ⟨.ok (some (UInt32.ofNat bytes.length)), h₁.setMemory stored, t⟩ := by
    unfold writeData
    rw [bind_of_ok hwritten, bind_of_ok_nil (hostWrite_of_ok (memory_setMemory hmemory₁ copied) hstore),
      setMemory_setMemory]
    exact congrArg (Res.mk _ _) (List.append_nil t)
  have hhost : (writeOptionalReturn run bytes (some returnData) (some returnSize)).run h =
      ⟨.ok (), h₁.setMemory memory', t⟩ := by
    unfold writeOptionalReturn
    rw [bind_of_ok_nil (hostSplit_of_some hmemory),
      bind_of_ok_nil (checkPointer_of_ok hmemory hdata),
      bind_of_ok_nil (checkPointer_of_ok hmemory hsize), bind_of_ok hdone]
    dsimp only [writtenSize]
    rw [bind_of_ok_nil (a := UInt32.ofNat bytes.length) (r := h₁.setMemory stored) rfl,
      hostWrite_of_ok (memory_setMemory hmemory₁ stored) hlast, setMemory_setMemory,
      List.append_nil]
  simp only [writeReturn, Prog.mapErr, hhost]

/-- **The allocator finds room** for `size` bytes, inside a memory that is no shorter than it
    was. -/
structure Room (run : I32 → Host I32) (h : HostState) (memory : Bytes) (size : ℕ)
    (address : GuestPtr) (h₁ : HostState) (memory₁ : Bytes) (t : List Event) : Prop where
  allocates : Allocates run h size address h₁ t
  memory_eq : h₁.memory = some memory₁
  grown : memory.length ≤ memory₁.length
  fits : address.toNat + size < 2 ^ 32
  inside : address.toNat + size ≤ memory₁.length

theorem Room.returns {data length : UInt32} (hmemory : h.memory = some memory)
    (hroom : Room run h memory bytes.length address h₁ memory₁ t)
    (hdata : readU32 memory returnData = .ok data)
    (hsize : readU32 memory returnSize = .ok length) :
    ∃ memory', Returned memory₁ bytes address returnData returnSize memory' ∧
      (writeReturn run bytes returnData returnSize).run h = ⟨.ok (), h₁.setMemory memory', t⟩ :=
  writeReturn_of_allocates hmemory hdata hsize hroom.allocates hroom.memory_eq hroom.grown
    hroom.fits hroom.inside

end Allocator

end ProxyWasmHost
