/-
  Which accesses of guest memory succeed, and what a write changes.
-/
import ProxyWasmHost.Runtime.Memory

namespace ProxyWasmHost

open LittleEndian

namespace GuestMemory

/-- A range that is built and read. -/
def readRange (len : UInt32) (memory : Bytes) (ptr : GuestPtr) : Except MemoryError Bytes := do
  read memory (← GuestSlice.new ptr len)

/-- A range that is built and written. -/
def writeRange (len : UInt32) (memory : Bytes) (ptr : GuestPtr) (bytes : Bytes) :
    Except MemoryError Bytes := do
  write memory (← GuestSlice.new ptr len) bytes

/-- **An access of `width` bytes is served**: it succeeds exactly inside the memory, and
    a write changes these bytes only, which a read then returns. -/
structure Serves {α : Type} (width : ℕ) (Fits : α → Prop)
    (read : Bytes → GuestPtr → Except MemoryError α)
    (write : Bytes → GuestPtr → α → Except MemoryError Bytes) (memory : Bytes) (ptr : GuestPtr) :
    Prop where
  reads : (∃ value, read memory ptr = .ok value) ↔ ptr.toNat + width ≤ memory.length
  writes : ∀ value, Fits value →
    ((∃ memory', write memory ptr value = .ok memory') ↔ ptr.toNat + width ≤ memory.length)
  changes : ∀ value memory', write memory ptr value = .ok memory' →
    memory'.length = memory.length ∧ read memory' ptr = .ok value ∧
      ∀ i, i < ptr.toNat ∨ ptr.toNat + width ≤ i → memory'[i]? = memory[i]?

variable {memory memory' bytes : Bytes} {ptr : GuestPtr} {len : UInt32}

/-! ## Ranges -/

theorem bind_eq_ok {ε α β : Type} {x : Except ε α} {f : α → Except ε β} {b : β} :
    (x >>= f) = .ok b ↔ ∃ a, x = .ok a ∧ f a = .ok b := by
  cases x <;> simp [Bind.bind, Except.bind]

theorem pure_eq_ok {ε α : Type} {a b : α} : (pure a : Except ε α) = .ok b ↔ a = b := by
  simp [Pure.pure, Except.pure]

theorem bounds_eq_ok {slice : GuestSlice} {size : ℕ} {u : Unit} :
    slice.bounds size = .ok u ↔ slice.ptr.toNat + slice.len.toNat ≤ size := by
  simp [GuestSlice.bounds]

theorem new_eq_ok {slice : GuestSlice} : GuestSlice.new ptr len = .ok slice ↔
    slice.ptr = ptr ∧ slice.len = len := by
  obtain ⟨ptr', len', hfits⟩ := slice
  unfold GuestSlice.new
  constructor
  · intro h
    split at h
    · cases h
      exact ⟨rfl, rfl⟩
    · cases h
  · rintro ⟨rfl, rfl⟩
    exact dif_pos hfits

/-- A range can be read when its end fits in 32 bits and lies in the memory. -/
theorem readRange_ok : readRange len memory ptr = .ok bytes ↔
    ptr.toNat + len.toNat < 2 ^ 32 ∧ ptr.toNat + len.toNat ≤ memory.length ∧
      bytes = (memory.drop ptr.toNat).take len.toNat := by
  simp only [readRange, GuestMemory.read, bind_eq_ok, new_eq_ok, bounds_eq_ok, pure_eq_ok]
  constructor
  · rintro ⟨slice, ⟨rfl, rfl⟩, -, hinside, rfl⟩
    exact ⟨slice.fits, hinside, rfl⟩
  · rintro ⟨hfits, hinside, rfl⟩
    exact ⟨⟨ptr, len, hfits⟩, ⟨rfl, rfl⟩, (), hinside, rfl⟩

/-- A range takes as many bytes as it holds, under the same condition. -/
theorem writeRange_ok : writeRange len memory ptr bytes = .ok memory' ↔
    bytes.length = len.toNat ∧ ptr.toNat + len.toNat < 2 ^ 32 ∧
      ptr.toNat + len.toNat ≤ memory.length ∧
      memory' = memory.take ptr.toNat ++ bytes ++ memory.drop (ptr.toNat + len.toNat) := by
  have hwrite : ∀ slice : GuestSlice, GuestMemory.write memory slice bytes = .ok memory' ↔
      bytes.length = slice.len.toNat ∧ slice.ptr.toNat + slice.len.toNat ≤ memory.length ∧
        memory' = memory.take slice.ptr.toNat ++ bytes ++
          memory.drop (slice.ptr.toNat + slice.len.toNat) := by
    intro slice
    unfold GuestMemory.write
    by_cases hlen : bytes.length = slice.len.toNat
    · rw [if_neg (not_not.2 hlen)]
      simp only [hlen, bind_eq_ok, bounds_eq_ok, pure_eq_ok, true_and, exists_const]
      exact and_congr_right fun _ => eq_comm
    · rw [if_pos hlen]
      simp only [hlen, bind_eq_ok, reduceCtorEq, false_and, exists_const]
  simp only [writeRange, bind_eq_ok, new_eq_ok, hwrite]
  constructor
  · rintro ⟨slice, ⟨rfl, rfl⟩, hlen, hinside, rfl⟩
    exact ⟨hlen, slice.fits, hinside, rfl⟩
  · rintro ⟨hlen, hfits, hinside, rfl⟩
    exact ⟨⟨ptr, len, hfits⟩, ⟨rfl, rfl⟩, hlen, hinside, rfl⟩

/-- What a write leaves: the bytes in the range, and the rest as it was. -/
theorem changes_of_writeRange (h : writeRange len memory ptr bytes = .ok memory') :
    memory'.length = memory.length ∧ readRange len memory' ptr = .ok bytes ∧
      ∀ i, i < ptr.toNat ∨ ptr.toNat + len.toNat ≤ i → memory'[i]? = memory[i]? := by
  obtain ⟨hlen, hfits, hinside, rfl⟩ := writeRange_ok.1 h
  have hstart : (memory.take ptr.toNat).length = ptr.toNat := by
    rw [List.length_take]
    omega
  have hlength : (memory.take ptr.toNat ++ bytes ++
      memory.drop (ptr.toNat + len.toNat)).length = memory.length := by
    simp only [List.length_append, hstart, hlen, List.length_drop]
    omega
  refine ⟨hlength, readRange_ok.2 ⟨hfits, hlength ▸ hinside, ?_⟩, ?_⟩
  · rw [List.append_assoc, List.drop_left' hstart, List.take_left' hlen]
  · rintro i (hi | hi)
    · rw [List.append_assoc, List.getElem?_append_left (by omega), List.getElem?_take_of_lt hi]
    · rw [List.getElem?_append_right (by rw [List.length_append]; omega), List.getElem?_drop]
      congr 1
      rw [List.length_append]
      omega

/-! ## Words -/

theorem readU32_ok {value : UInt32} : readU32 memory ptr = .ok value ↔
    ∃ bytes, readRange 4 memory ptr = .ok bytes ∧ UInt32.ofNat (ofBytes bytes) = value := by
  have hrange : readU32 memory ptr =
      readRange 4 memory ptr >>= fun bytes => pure (UInt32.ofNat (ofBytes bytes)) :=
    (bind_assoc _ _ _).symm
  simp only [hrange, bind_eq_ok, pure_eq_ok]

theorem readU64_ok {value : UInt64} : readU64 memory ptr = .ok value ↔
    ∃ bytes, readRange 8 memory ptr = .ok bytes ∧ UInt64.ofNat (ofBytes bytes) = value := by
  have hrange : readU64 memory ptr =
      readRange 8 memory ptr >>= fun bytes => pure (UInt64.ofNat (ofBytes bytes)) :=
    (bind_assoc _ _ _).symm
  simp only [hrange, bind_eq_ok, pure_eq_ok]

theorem ofBytes_u32 (value : UInt32) :
    UInt32.ofNat (ofBytes (toBytes 4 value.toNat)) = value := by
  rw [ofBytes_toBytes (by have := value.toNat_lt; omega), UInt32.ofNat_toNat]

theorem ofBytes_u64 (value : UInt64) :
    UInt64.ofNat (ofBytes (toBytes 8 value.toNat)) = value := by
  rw [ofBytes_toBytes (by have := value.toNat_lt; omega), UInt64.ofNat_toNat]

/-! ## Which accesses are served -/

/-- The end of the range is past 32 bits, and not past the memory: it is the end of a
    memory of 4 GiB. -/
def EndsFull (memory : Bytes) (ptr : GuestPtr) (width : ℕ) : Prop :=
  memory.length = 2 ^ 32 ∧ ptr.toNat + width = 2 ^ 32

/-- An access that succeeds when its end fits in 32 bits and lies in the memory is
    served unless it ends a memory of 4 GiB. -/
theorem serves_iff {α : Type} {width : ℕ} {Fits : α → Prop}
    {read : Bytes → GuestPtr → Except MemoryError α}
    {write : Bytes → GuestPtr → α → Except MemoryError Bytes} (hsize : memory.length ≤ 2 ^ 32)
    (hread : (∃ value, read memory ptr = .ok value) ↔
      ptr.toNat + width < 2 ^ 32 ∧ ptr.toNat + width ≤ memory.length)
    (hwrite : ∀ value, Fits value → ((∃ memory', write memory ptr value = .ok memory') ↔
      ptr.toNat + width < 2 ^ 32 ∧ ptr.toNat + width ≤ memory.length))
    (hchanges : ∀ value memory', write memory ptr value = .ok memory' →
      memory'.length = memory.length ∧ read memory' ptr = .ok value ∧
        ∀ i, i < ptr.toNat ∨ ptr.toNat + width ≤ i → memory'[i]? = memory[i]?) :
    Serves width Fits read write memory ptr ↔ ¬ EndsFull memory ptr width := by
  constructor
  · rintro hserves ⟨hfull, hend⟩
    have hinside := hread.1 (hserves.reads.2 (by omega))
    omega
  · intro hpartial
    have hfits : ptr.toNat + width ≤ memory.length → ptr.toNat + width < 2 ^ 32 := by
      intro hinside
      by_contra hpast
      exact hpartial ⟨by omega, by omega⟩
    refine ⟨?_, fun value hvalue => ?_, hchanges⟩
    · rw [hread]
      exact and_iff_right_of_imp hfits
    · rw [hwrite value hvalue]
      exact and_iff_right_of_imp hfits

theorem serves_range_iff (hsize : memory.length ≤ 2 ^ 32) :
    Serves len.toNat (fun bytes => bytes.length = len.toNat) (readRange len) (writeRange len)
      memory ptr ↔ ¬ EndsFull memory ptr len.toNat := by
  refine serves_iff hsize ?_ ?_ fun _ _ => changes_of_writeRange
  · simp only [readRange_ok, exists_and_left, exists_eq, and_true]
  · intro bytes hlen
    simp only [writeRange_ok, exists_and_left, exists_eq, and_true, hlen, true_and]

/-- A number whose bytes fill a range, and decode to it again, is served as the range is. -/
theorem serves_number_iff {ν : Type} {encode : ν → Bytes} {decode : Bytes → ν}
    {readNumber : Bytes → GuestPtr → Except MemoryError ν}
    (hread : ∀ {memory value}, readNumber memory ptr = .ok value ↔
      ∃ bytes, readRange len memory ptr = .ok bytes ∧ decode bytes = value)
    (hlength : ∀ value, (encode value).length = len.toNat)
    (hdecode : ∀ value, decode (encode value) = value) (hsize : memory.length ≤ 2 ^ 32) :
    Serves len.toNat (fun _ => True) readNumber
        (fun memory ptr value => writeRange len memory ptr (encode value)) memory ptr ↔
      ¬ EndsFull memory ptr len.toNat := by
  refine serves_iff hsize ?_ ?_ ?_
  · simp [hread, readRange_ok]
  · intro value _
    simp [writeRange_ok, hlength]
  · intro value memory' hwrite
    obtain ⟨hlength, hreads, hframe⟩ := changes_of_writeRange hwrite
    exact ⟨hlength, hread.2 ⟨_, hreads, hdecode value⟩, hframe⟩

/-- **The accesses of a memory of at most 4 GiB**: a range and a word are served, at
    every address, exactly unless they end a memory of 4 GiB. -/
theorem accesses_served (memory : Bytes) (hsize : memory.length ≤ 2 ^ 32) (ptr : GuestPtr)
    (len : UInt32) :
    (Serves len.toNat (fun bytes => bytes.length = len.toNat) (readRange len) (writeRange len)
        memory ptr ↔ ¬ EndsFull memory ptr len.toNat) ∧
      (Serves 4 (fun _ => True) readU32 writeU32 memory ptr ↔ ¬ EndsFull memory ptr 4) ∧
      (Serves 8 (fun _ => True) readU64 writeU64 memory ptr ↔ ¬ EndsFull memory ptr 8) :=
  ⟨serves_range_iff hsize,
    serves_number_iff readU32_ok (fun _ => length_toBytes _ _) ofBytes_u32 hsize,
    serves_number_iff readU64_ok (fun _ => length_toBytes _ _) ofBytes_u64 hsize⟩

/-- An empty range at the end of one page, and a word at its start. -/
theorem accesses_served_page :
    Serves 0 (fun bytes => bytes.length = 0) (readRange 0) (writeRange 0)
        (List.replicate 65536 0) 65536 ∧
      Serves 8 (fun _ => True) readU64 writeU64 (List.replicate 65536 0) 65528 := by
  have hpage : (List.replicate 65536 (0 : UInt8)).length = 65536 := List.length_replicate
  have hfull : ∀ (ptr : GuestPtr) (width : ℕ),
      ¬ EndsFull (List.replicate 65536 (0 : UInt8)) ptr width := by
    rintro ptr width ⟨hlen, -⟩
    rw [hpage] at hlen
    omega
  exact ⟨(accesses_served _ (by rw [hpage]; decide) 65536 0).1.2 (hfull _ _),
    (accesses_served _ (by rw [hpage]; decide) 65528 0).2.2.2 (hfull _ _)⟩

/-- The last byte of a memory of 4 GiB is out of reach. -/
theorem last_byte_unserved :
    ¬ ∀ (memory : Bytes) (ptr : GuestPtr) (len : UInt32), memory.length ≤ 2 ^ 32 →
      Serves len.toNat (fun bytes => bytes.length = len.toNat) (readRange len) (writeRange len)
        memory ptr := by
  intro hall
  have hfull : (List.replicate (2 ^ 32) (0 : UInt8)).length = 2 ^ 32 := List.length_replicate
  have hserves := hall (List.replicate (2 ^ 32) 0) 0xffffffff 1 (le_of_eq hfull)
  obtain ⟨bytes, hread⟩ := hserves.reads.2 (by rw [hfull]; decide)
  have hfits := (readRange_ok.1 hread).1
  revert hfits
  decide

end GuestMemory

end ProxyWasmHost
