/-
  The environment that a guest reads, and the places in its memory that it is written to.
-/
import ProxyWasmHost.HostFunctions.Answers
import ProxyWasmHost.HostFunctions.Table
import ProxyWasmHost.Runtime.Return

namespace ProxyWasmHost

open Prog GuestMemory LittleEndian

variable {h : HostState} {memory memory' bytes : Bytes} {ptr : GuestPtr} {size : ℕ}

/-! ## Places -/

/-- The `size` bytes at `ptr` are inside the memory, and the host can reach them. -/
def Inside (memory : Bytes) (ptr : GuestPtr) (size : ℕ) : Prop :=
  ptr.toNat + size < 2 ^ 32 ∧ ptr.toNat + size ≤ memory.length

instance : Decidable (Inside memory ptr size) := inferInstanceAs (Decidable (_ ∧ _))

/-- The memory with `bytes` at `ptr`. -/
def putAt (memory : Bytes) (ptr : GuestPtr) (bytes : Bytes) : Bytes :=
  memory.take ptr.toNat ++ bytes ++ memory.drop (ptr.toNat + bytes.length)

/-- The `size` bytes at `ptr`. -/
def bytesAt (memory : Bytes) (ptr size : ℕ) : Bytes := (memory.drop ptr).take size

section Places

/-- A range takes bytes exactly inside the memory. -/
theorem writeRange_of_inside (hinside : Inside memory ptr bytes.length) :
    writeRange (UInt32.ofNat bytes.length) memory ptr bytes = .ok (putAt memory ptr bytes) := by
  obtain ⟨hfits, hle⟩ := hinside
  have hnat : (UInt32.ofNat bytes.length).toNat = bytes.length := by
    rw [UInt32.toNat_ofNat', Nat.mod_eq_of_lt (by omega)]
  exact writeRange_ok.2 ⟨hnat.symm, hnat.symm ▸ hfits, hnat.symm ▸ hle, by rw [hnat]; rfl⟩

theorem length_putAt (hinside : Inside memory ptr bytes.length) :
    (putAt memory ptr bytes).length = memory.length :=
  (changes_of_writeRange (writeRange_of_inside hinside)).1

theorem toNat_length (hinside : Inside memory ptr bytes.length) :
    (UInt32.ofNat bytes.length).toNat = bytes.length := by
  obtain ⟨hfits, -⟩ := hinside
  rw [UInt32.toNat_ofNat', Nat.mod_eq_of_lt (by omega)]

theorem getElem?_putAt_of_outside (hinside : Inside memory ptr bytes.length) {i : ℕ}
    (hi : i < ptr.toNat ∨ ptr.toNat + bytes.length ≤ i) : (putAt memory ptr bytes)[i]? = memory[i]? := by
  obtain ⟨-, -, hframe⟩ := changes_of_writeRange (writeRange_of_inside hinside)
  exact hframe i (by rwa [toNat_length hinside])

theorem bytesAt_putAt_self (hinside : Inside memory ptr bytes.length) :
    bytesAt (putAt memory ptr bytes) ptr.toNat bytes.length = bytes := by
  obtain ⟨-, hread, -⟩ := changes_of_writeRange (writeRange_of_inside hinside)
  have hback := (readRange_ok.1 hread).2.2
  rw [toNat_length hinside] at hback
  exact hback.symm

/-- Two memories with the same bytes somewhere are read alike there. -/
theorem bytesAt_congr {start size : ℕ} (hsame : ∀ i, start ≤ i → i < start + size →
    memory'[i]? = memory[i]?) : bytesAt memory' start size = bytesAt memory start size := by
  refine List.ext_getElem? fun i => ?_
  simp only [bytesAt, List.getElem?_take, List.getElem?_drop]
  split
  · exact hsame _ (by omega) (by omega)
  · rfl

/-- A part of what was put somewhere. -/
theorem bytesAt_putAt_part (hinside : Inside memory ptr bytes.length) {start size : ℕ}
    (hpart : start + size ≤ bytes.length) :
    bytesAt (putAt memory ptr bytes) (ptr.toNat + start) size = bytesAt bytes start size := by
  have hwhole := bytesAt_putAt_self hinside
  have hsplit : bytesAt (putAt memory ptr bytes) (ptr.toNat + start) size =
      bytesAt (bytesAt (putAt memory ptr bytes) ptr.toNat bytes.length) start size := by
    refine List.ext_getElem? fun i => ?_
    simp only [bytesAt, List.getElem?_take, List.getElem?_drop]
    split
    · rw [if_pos (by omega), Nat.add_assoc]
    · rfl
  rw [hsplit, hwhole]

/-- What was there already is put there with no change. -/
theorem putAt_eq_self (hinside : Inside memory ptr bytes.length) :
    putAt memory ptr bytes = memory ↔ bytesAt memory ptr.toNat bytes.length = bytes := by
  constructor
  · intro h
    have hself := bytesAt_putAt_self hinside
    rwa [h] at hself
  · intro h
    have hrest : memory.take ptr.toNat ++ (bytesAt memory ptr.toNat bytes.length ++
        (memory.drop ptr.toNat).drop bytes.length) = memory := by
      rw [bytesAt, List.take_append_drop, List.take_append_drop]
    rw [h, List.drop_drop] at hrest
    rw [putAt, List.append_assoc]
    exact hrest

end Places

namespace Wasi

/-! ## What the writes of WASI do -/

theorem split_of_some (hmemory : h.memory = some memory) :
    Wasi.split.run h = ⟨.ok memory, h, []⟩ := by
  simp only [Wasi.split, Prog.mapErr, hostSplit_of_some hmemory]

theorem write_of_ok {access : Bytes → Except MemoryError Bytes} (hmemory : h.memory = some memory)
    (haccess : access memory = .ok memory') :
    (Wasi.write access).run h = ⟨.ok (), h.setMemory memory', []⟩ := by
  unfold Wasi.write fault
  rw [bind_of_ok_nil (split_of_some hmemory), haccess]
  rfl

theorem write_of_error {access : Bytes → Except MemoryError Bytes} {error : MemoryError}
    (hmemory : h.memory = some memory) (haccess : access memory = .error error) :
    (Wasi.write access).run h = ⟨.err .fault, h, []⟩ := by
  unfold Wasi.write fault
  rw [bind_of_ok_nil (split_of_some hmemory), haccess]
  rfl

/-- **A place takes bytes** exactly inside the memory. -/
theorem put_run (hmemory : h.memory = some memory) (ptr : GuestPtr) {len : UInt32}
    (hlen : len.toNat = bytes.length) :
    (Wasi.write (writeRange len · ptr bytes)).run h =
      if Inside memory ptr bytes.length then ⟨.ok (), h.setMemory (putAt memory ptr bytes), []⟩
      else ⟨.err .fault, h, []⟩ := by
  have hlen' : len = UInt32.ofNat bytes.length := by rw [← hlen, UInt32.ofNat_toNat]
  split
  · rename_i hinside
    exact write_of_ok hmemory (by rw [hlen']; exact writeRange_of_inside hinside)
  · rename_i hoff
    cases hwrite : writeRange len memory ptr bytes with
    | error error => exact write_of_error hmemory hwrite
    | ok memory' =>
      obtain ⟨-, hfits, hle, -⟩ := writeRange_ok.1 hwrite
      rw [hlen] at hfits hle
      exact absurd ⟨hfits, hle⟩ hoff

theorem writeU32_run (hmemory : h.memory = some memory) (ptr : GuestPtr) (value : UInt32) :
    (Wasi.write (GuestMemory.writeU32 · ptr value)).run h =
      if Inside memory ptr 4 then
        ⟨.ok (), h.setMemory (putAt memory ptr (toBytes 4 value.toNat)), []⟩
      else ⟨.err .fault, h, []⟩ := by
  have hlength : (toBytes 4 value.toNat).length = 4 := length_toBytes _ _
  have hrun : (Wasi.write (writeRange 4 · ptr (toBytes 4 value.toNat))).run h = _ :=
    put_run hmemory ptr hlength.symm
  rw [hlength] at hrun
  exact hrun

/-- **A block is written** exactly where it fits inside the memory. -/
theorem writeBlock_run (hmemory : h.memory = some memory) (ptr : GuestPtr) (block : Bytes) :
    (writeBlock ptr block).run h =
      if Inside memory ptr block.length then ⟨.ok (), h.setMemory (putAt memory ptr block), []⟩
      else ⟨.err .fault, h, []⟩ := by
  unfold writeBlock
  by_cases hsmall : block.length < 2 ^ 32
  · rw [Prog.require, if_pos hsmall, bind_of_ok_nil (a := ()) (r := h) rfl]
    have hnat : (UInt32.ofNat block.length).toNat = block.length := by
      rw [UInt32.toNat_ofNat', Nat.mod_eq_of_lt hsmall]
    rw [← put_run hmemory ptr hnat]
    cases hslice : GuestSlice.new ptr (UInt32.ofNat block.length) with
    | ok slice =>
      have hwrite : ∀ memory, writeRange (UInt32.ofNat block.length) memory ptr block =
          GuestMemory.write memory slice block := by
        intro memory
        unfold writeRange
        rw [hslice]
        rfl
      rw [bind_of_ok_nil (a := slice) (r := h) (by unfold fault; rfl)]
      simp only [hwrite]
    | error error =>
      have hwrite : writeRange (UInt32.ofNat block.length) memory ptr block = .error error := by
        unfold writeRange
        rw [hslice]
        rfl
      rw [write_of_error hmemory hwrite]
      rfl
  · rw [Prog.require, if_neg hsmall, if_neg fun hinside => hsmall (by have := hinside.1; omega)]
    rfl

/-! ## The environment -/

/-- The addresses of the variables, the first at `offset`. -/
def pointersFrom : List Pair → ℕ → Bytes
  | [], _ => []
  | entry :: environment, offset =>
    toBytes 4 offset ++ pointersFrom environment (offset + (environmentEntry entry).length)

theorem length_environmentEntry (entry : Pair) :
    (environmentEntry entry).length = entry.1.length + entry.2.length + 2 := by
  simp only [environmentEntry, List.length_append, List.length_singleton]
  omega

theorem environmentBlock_cons (entry : Pair) (environment : List Pair) :
    environmentBlock (entry :: environment) =
      environmentEntry entry ++ environmentBlock environment := rfl

theorem length_pointersFrom (environment : List Pair) (offset : ℕ) :
    (pointersFrom environment offset).length = 4 * environment.length := by
  induction environment generalizing offset with
  | nil => rfl
  | cons entry environment ih =>
    rw [pointersFrom, List.length_append, length_toBytes, ih, List.length_cons]
    omega

/-- **The addresses are computed** exactly when the end of the block fits 32 bits. -/
theorem environPointers_run (environment : List Pair) (offset : ℕ) (hoffset : offset < 2 ^ 32)
    (h : HostState) :
    (environPointers environment offset).run h =
      if offset + (environmentBlock environment).length < 2 ^ 32 then
        ⟨.ok (pointersFrom environment offset), h, []⟩
      else ⟨.err .fault, h, []⟩ := by
  induction environment generalizing offset with
  | nil =>
    have hend : offset + (environmentBlock []).length < 2 ^ 32 := hoffset
    rw [if_pos hend]
    rfl
  | cons entry environment ih =>
    obtain ⟨key, value⟩ := entry
    have hentry := length_environmentEntry (key, value)
    have hlength : (environmentBlock ((key, value) :: environment)).length =
        key.length + value.length + 2 + (environmentBlock environment).length := by
      rw [environmentBlock_cons, List.length_append, hentry]
    rw [hlength]
    unfold environPointers
    dsimp only
    by_cases hfits : offset + (key.length + value.length + 2) < 2 ^ 32
    · rw [Prog.require, if_pos (by omega), bind_of_ok_nil (a := ()) (r := h) rfl, Prog.require,
        if_pos hfits, bind_of_ok_nil (a := ()) (r := h) rfl]
      have hrest := ih _ hfits
      by_cases hblock : offset + (key.length + value.length + 2) +
          (environmentBlock environment).length < 2 ^ 32
      · rw [if_pos hblock] at hrest
        rw [if_pos (by omega), bind_of_ok_nil hrest, pointersFrom, hentry]
        rfl
      · rw [if_neg hblock] at hrest
        rw [if_neg (by omega), bind_of_err hrest]
    · rw [if_neg (by omega)]
      by_cases hsmall : key.length + value.length + 2 < 2 ^ 32
      · rw [Prog.require, if_pos hsmall, bind_of_ok_nil (a := ()) (r := h) rfl, Prog.require,
          if_neg hfits]
        rfl
      · rw [Prog.require, if_neg hsmall]
        rfl

/-! ## The functions that write two places -/

/-- What is left when `p` is written and then `q`. -/
def putBoth (h : HostState) (memory : Bytes) (p q : GuestPtr × Bytes) :
    Res HostState Event WasiErrno Unit :=
  if Inside memory p.1 p.2.length then
    if Inside memory q.1 q.2.length then
      ⟨.ok (), h.setMemory (putAt (putAt memory p.1 p.2) q.1 q.2), []⟩
    else ⟨.err .fault, h.setMemory (putAt memory p.1 p.2), []⟩
  else ⟨.err .fault, h, []⟩

theorem inside_putAt {p : GuestPtr × Bytes} (hinside : Inside memory p.1 p.2.length) :
    Inside (putAt memory p.1 p.2) ptr size ↔ Inside memory ptr size := by
  unfold Inside
  rw [length_putAt hinside]

theorem writeBlock_writeBlock_run (hmemory : h.memory = some memory) (p q : GuestPtr × Bytes) :
    (writeBlock p.1 p.2 >>= fun _ => writeBlock q.1 q.2).run h = putBoth h memory p q := by
  have hfirst := writeBlock_run hmemory p.1 p.2
  unfold putBoth
  by_cases hp : Inside memory p.1 p.2.length
  · rw [if_pos hp] at hfirst ⊢
    rw [bind_of_ok_nil hfirst, writeBlock_run (memory_setMemory hmemory _), setMemory_setMemory]
    simp only [inside_putAt hp]
  · rw [if_neg hp] at hfirst ⊢
    rw [bind_of_err hfirst]

theorem writeU32_eq_writeBlock (hmemory : h.memory = some memory) (ptr : GuestPtr)
    (value : UInt32) : (Wasi.write (GuestMemory.writeU32 · ptr value)).run h =
      (writeBlock ptr (toBytes 4 value.toNat)).run h := by
  rw [writeU32_run hmemory, writeBlock_run hmemory, length_toBytes]

theorem writeU32_writeU32_run (hmemory : h.memory = some memory) (ptr ptr' : GuestPtr)
    (value value' : UInt32) :
    (Wasi.write (GuestMemory.writeU32 · ptr value) >>= fun _ =>
      Wasi.write (GuestMemory.writeU32 · ptr' value')).run h =
      putBoth h memory (ptr, toBytes 4 value.toNat) (ptr', toBytes 4 value'.toNat) := by
  rw [← writeBlock_writeBlock_run hmemory]
  have hfirst := writeU32_eq_writeBlock hmemory ptr value
  have hblock := writeBlock_run hmemory ptr (toBytes 4 value.toNat)
  by_cases hp : Inside memory ptr (toBytes 4 value.toNat).length
  · rw [if_pos hp] at hblock
    rw [bind_of_ok_nil (hfirst.trans hblock), bind_of_ok_nil hblock,
      writeU32_eq_writeBlock (memory_setMemory hmemory _)]
  · rw [if_neg hp] at hblock
    rw [bind_of_err (hfirst.trans hblock), bind_of_err hblock]

/-- The two places that a function writes in sequence, and what it writes there; none when it
    refuses before it writes. -/
def places (environment : List Pair) : HostCall → Option ((GuestPtr × Bytes) × (GuestPtr × Bytes))
  | .environSizesGet countPtr sizePtr =>
    if environment.length < 2 ^ 32 ∧ (environmentBlock environment).length < 2 ^ 32 then
      some ((countPtr, toBytes 4 environment.length),
        (sizePtr, toBytes 4 (environmentBlock environment).length))
    else none
  | .environGet array buffer =>
    if buffer.toNat + (environmentBlock environment).length < 2 ^ 32 then
      some ((array, pointersFrom environment buffer.toNat),
        (buffer, environmentBlock environment))
    else none
  | .argsSizesGet argc size => some ((argc, toBytes 4 0), (size, toBytes 4 0))
  | _ => none

/-- What is left when the places are written, or none are. -/
def putPlaces (h : HostState) (memory : Bytes) :
    Option ((GuestPtr × Bytes) × (GuestPtr × Bytes)) → Res HostState Event WasiErrno Unit
  | none => ⟨.err .fault, h, []⟩
  | some (p, q) => putBoth h memory p q

theorem environSizesGet_run (hmemory : h.memory = some memory) (countPtr sizePtr : I32) :
    (environSizesGet countPtr sizePtr).run h =
      putPlaces h memory (places h.abi.services.environment (.environSizesGet countPtr sizePtr)) := by
  unfold environSizesGet
  rw [bind_of_ok_nil (split_of_some hmemory),
    bind_of_ok_nil (a := h.abi.services.environment) (r := h) rfl]
  dsimp only [places]
  by_cases hcount : h.abi.services.environment.length < 2 ^ 32
  · rw [Prog.require, if_pos hcount, bind_of_ok_nil (a := ()) (r := h) rfl]
    by_cases hsize : (environmentBlock h.abi.services.environment).length < 2 ^ 32
    · rw [Prog.require, if_pos hsize, bind_of_ok_nil (a := ()) (r := h) rfl, if_pos ⟨hcount, hsize⟩,
        writeU32_writeU32_run hmemory]
      simp only [UInt32.toNat_ofNat', Nat.mod_eq_of_lt hcount, Nat.mod_eq_of_lt hsize, putPlaces]
    · rw [Prog.require, if_neg hsize, if_neg fun h => hsize h.2]
      rfl
  · rw [Prog.require, if_neg hcount, if_neg fun h => hcount h.1]
    rfl

theorem environGet_run (hmemory : h.memory = some memory) (array buffer : I32) :
    (environGet array buffer).run h =
      putPlaces h memory (places h.abi.services.environment (.environGet array buffer)) := by
  have hpointers := environPointers_run h.abi.services.environment buffer.toNat buffer.toNat_lt h
  unfold environGet
  rw [bind_of_ok_nil (split_of_some hmemory),
    bind_of_ok_nil (a := h.abi.services.environment) (r := h) rfl]
  dsimp only [places]
  by_cases hfits : buffer.toNat + (environmentBlock h.abi.services.environment).length < 2 ^ 32
  · rw [if_pos hfits] at hpointers ⊢
    rw [bind_of_ok_nil hpointers]
    exact writeBlock_writeBlock_run hmemory (array, pointersFrom _ _) (buffer, environmentBlock _)
  · rw [if_neg hfits] at hpointers ⊢
    rw [bind_of_err hpointers]
    rfl

theorem argsSizesGet_run (hmemory : h.memory = some memory) (argc size : I32) :
    (argsSizesGet argc size).run h =
      putPlaces h memory (places h.abi.services.environment (.argsSizesGet argc size)) := by
  unfold argsSizesGet
  rw [bind_of_ok_nil (split_of_some hmemory)]
  exact writeU32_writeU32_run hmemory argc size 0 0

/-! ## The layout of the environment -/

section Layout

variable {environment : List Pair} {i : ℕ}

/-- The number of bytes before variable `i`. -/
def offsetOf (environment : List Pair) (i : ℕ) : ℕ := (environmentBlock (environment.take i)).length

theorem offsetOf_cons (entry : Pair) (environment : List Pair) (i : ℕ) :
    offsetOf (entry :: environment) (i + 1) =
      (environmentEntry entry).length + offsetOf environment i := by
  unfold offsetOf
  rw [List.take_succ_cons, environmentBlock_cons, List.length_append]

/-- Address `i` is that of the bytes after the earlier variables. -/
theorem bytesAt_pointersFrom (hi : i < environment.length) (offset : ℕ) :
    bytesAt (pointersFrom environment offset) (4 * i) 4 =
      toBytes 4 (offset + offsetOf environment i) := by
  induction environment generalizing i offset with
  | nil => exact absurd hi (Nat.not_lt_zero i)
  | cons entry environment ih =>
    have hhead : (toBytes 4 offset).length = 4 := length_toBytes _ _
    cases i with
    | zero =>
      rw [pointersFrom, bytesAt, Nat.mul_zero, List.drop_zero, List.take_left' hhead]
      rfl
    | succ i =>
      have hrest := ih (Nat.lt_of_succ_lt_succ hi) (offset + (environmentEntry entry).length)
      rw [pointersFrom, bytesAt, Nat.mul_succ, Nat.add_comm (4 * i), ← List.drop_drop,
        List.drop_left' hhead, ← bytesAt, hrest, offsetOf_cons, Nat.add_assoc]

/-- The bytes of variable `i` in the block. -/
theorem bytesAt_environmentBlock (hi : i < environment.length) :
    bytesAt (environmentBlock environment) (offsetOf environment i)
      (environmentEntry environment[i]).length = environmentEntry environment[i] := by
  have hsplit : environmentBlock environment = environmentBlock (environment.take i) ++
      (environmentEntry environment[i] ++ environmentBlock (environment.drop (i + 1))) := by
    rw [← environmentBlock_cons, List.getElem_cons_drop, environmentBlock, environmentBlock,
      environmentBlock, ← List.flatMap_append, List.take_append_drop]
  unfold offsetOf bytesAt
  rw [hsplit, List.drop_left, List.take_left]

theorem offsetOf_add_le (hi : i < environment.length) :
    offsetOf environment i + (environmentEntry environment[i]).length ≤
      (environmentBlock environment).length := by
  have hlength := congrArg List.length (bytesAt_environmentBlock hi)
  have hpos : 0 < (environmentEntry environment[i]).length := by
    rw [length_environmentEntry]
    omega
  rw [bytesAt, List.length_take, List.length_drop] at hlength
  omega

/-- Every variable has at least two bytes. -/
theorem length_le_environmentBlock (environment : List Pair) :
    2 * environment.length ≤ (environmentBlock environment).length := by
  induction environment with
  | nil => exact Nat.zero_le _
  | cons entry environment ih =>
    have hentry := length_environmentEntry entry
    rw [environmentBlock_cons, List.length_append, List.length_cons]
    omega

end Layout

end Wasi

/-! ## The answers of WASI -/

section Errno

variable {body : Wasi Unit} {h' : HostState} {t : List Event}

theorem errno_of_ok (hbody : body.run h = ⟨.ok (), h', t⟩) :
    (errno body).run h = ⟨.ok WasiErrno.success.toI32, h', t⟩ := by
  have hattempt : (Prog.attempt body : Host (Except WasiErrno Unit)).run h =
      ⟨.ok (.ok ()), h', t⟩ := by
    simp only [Prog.attempt, hbody]
  rw [errno, bind_of_ok hattempt]
  simp [Pure.pure, Prog.pure]

theorem errno_of_err {error : WasiErrno} (hbody : body.run h = ⟨.err error, h', t⟩) :
    (errno body).run h = ⟨.ok error.toI32, h', t⟩ := by
  have hattempt : (Prog.attempt body : Host (Except WasiErrno Unit)).run h =
      ⟨.ok (.error error), h', t⟩ := by
    simp only [Prog.attempt, hbody]
  rw [errno, bind_of_ok hattempt]
  simp [Pure.pure, Prog.pure]

theorem errno_of_panicked (hbody : body.run h = ⟨.panicked, h', t⟩) :
    (errno body).run h = ⟨.panicked, h', t⟩ := by
  have hattempt : (Prog.attempt body : Host (Except WasiErrno Unit)).run h =
      ⟨.panicked, h', t⟩ := by
    simp only [Prog.attempt, hbody]
  rw [errno, bind_of_panicked hattempt]

end Errno

/-! ## What the guest reads of its environment -/

open Wasi in
theorem offsetOf_eq_sum (environment : List Pair) (i : ℕ) : offsetOf environment i =
    ((environment.take i).map fun entry => entry.1.length + entry.2.length + 2).sum := by
  induction environment generalizing i with
  | nil => simp [offsetOf, environmentBlock]
  | cons entry environment ih =>
    cases i with
    | zero => rfl
    | succ i =>
      rw [offsetOf_cons, ih, length_environmentEntry, List.take_succ_cons, List.map_cons,
        List.sum_cons]

theorem readU32_of_bytesAt {value : UInt32} (hinside : Inside memory ptr 4)
    (hbytes : bytesAt memory ptr.toNat 4 = toBytes 4 value.toNat) :
    readU32 memory ptr = .ok value :=
  readU32_ok.2 ⟨_, readRange_ok.2 ⟨hinside.1, hinside.2, rfl⟩, by
    rw [show (memory.drop ptr.toNat).take (4 : UInt32).toNat = toBytes 4 value.toNat from hbytes,
      ofBytes_u32]⟩

/-- What was put somewhere stays when something is put apart from it. -/
theorem bytesAt_putAt_of_apart {start size : ℕ} (hinside : Inside memory ptr bytes.length)
    (hapart : start + size ≤ ptr.toNat ∨ ptr.toNat + bytes.length ≤ start) :
    bytesAt (putAt memory ptr bytes) start size = bytesAt memory start size :=
  bytesAt_congr fun i hlow hhigh => getElem?_putAt_of_outside hinside (by omega)

open Wasi in
/-- The sizes that the guest is told. -/
theorem environSizesGet_reads {environment : List Pair} {env : Env}
    (henvironment : h.abi.services.environment = environment) (hmemory : h.memory = some memory)
    (hsize : (environmentBlock environment).length < 2 ^ 32) {countPtr sizePtr : I32}
    (hcount : Inside memory countPtr 4) (hword : Inside memory sizePtr 4)
    (hapart : Apart countPtr 4 sizePtr 4) :
    ∃ sizes, ((HostCall.environSizesGet countPtr sizePtr).run env).run h =
        ⟨.ok WasiErrno.success.toI32, h.setMemory sizes, []⟩ ∧
      readU32 sizes countPtr = .ok (UInt32.ofNat environment.length) ∧
      readU32 sizes sizePtr = .ok (UInt32.ofNat (environmentBlock environment).length) := by
  have hlength := length_le_environmentBlock environment
  have hn : environment.length < 2 ^ 32 := by omega
  have hrun := environSizesGet_run hmemory countPtr sizePtr
  have hfour : ∀ n, (toBytes 4 n).length = 4 := fun n => length_toBytes _ _
  have hputs : Inside memory countPtr (toBytes 4 environment.length).length := by
    rwa [hfour]
  have hputs' : Inside (putAt memory countPtr (toBytes 4 environment.length)) sizePtr
      (toBytes 4 (environmentBlock environment).length).length := by
    rw [hfour]
    exact (inside_putAt (p := (countPtr, _)) hputs).2 hword
  have hleft : ∀ ptr, Inside memory ptr 4 → Inside (putAt (putAt memory countPtr
      (toBytes 4 environment.length)) sizePtr (toBytes 4 (environmentBlock environment).length))
      ptr 4 := fun ptr hptr =>
    (inside_putAt (p := (sizePtr, _)) hputs').2 ((inside_putAt (p := (countPtr, _)) hputs).2 hptr)
  rw [henvironment, places, if_pos ⟨hn, hsize⟩] at hrun
  dsimp only [putPlaces, putBoth] at hrun
  rw [if_pos hputs, if_pos (by rwa [hfour])] at hrun
  refine ⟨_, errno_of_ok hrun, readU32_of_bytesAt (hleft _ hcount) ?_,
    readU32_of_bytesAt (hleft _ hword) ?_⟩
  · rw [bytesAt_putAt_of_apart hputs' (by rw [hfour]; exact hapart), UInt32.toNat_ofNat',
      Nat.mod_eq_of_lt hn]
    have hself := bytesAt_putAt_self hputs
    rwa [hfour] at hself
  · rw [UInt32.toNat_ofNat', Nat.mod_eq_of_lt hsize]
    have hself := bytesAt_putAt_self hputs'
    rwa [hfour] at hself

open Wasi in
/-- **The environment the guest reads.** Where the two ranges do not meet, entry `i` of the array
    is the address of variable `i`, which has the earlier ones before it in the buffer; the
    variable stands there as `key=value` and a zero byte, and no other byte of the memory
    changes. The sizes that the guest is told are the number of variables and of the bytes in
    the buffer. -/
theorem environment_read (env : Env) (h : HostState) (memory : Bytes) (environment : List Pair)
    (hmemory : h.memory = some memory) (henvironment : h.abi.services.environment = environment)
    (array buffer : I32)
    (hexit : (((HostCall.environGet array buffer).run env).run h).exit =
      .ok WasiErrno.success.toI32)
    (hapart : Apart array (4 * environment.length) buffer (environmentBlock environment).length) :
    ∃ memory', (((HostCall.environGet array buffer).run env).run h).state = h.setMemory memory' ∧
      memory'.length = memory.length ∧
      (∀ i (hi : i < environment.length),
        ofBytes (bytesAt memory' (array.toNat + 4 * i) 4) = buffer.toNat +
          ((environment.take i).map fun entry => entry.1.length + entry.2.length + 2).sum ∧
        bytesAt memory' (buffer.toNat +
            ((environment.take i).map fun entry => entry.1.length + entry.2.length + 2).sum)
          (environment[i].1.length + environment[i].2.length + 2) =
            environment[i].1 ++ [61] ++ environment[i].2 ++ [0]) ∧
      (∀ i, i < array.toNat ∨ array.toNat + 4 * environment.length ≤ i →
        i < buffer.toNat ∨ buffer.toNat + (environmentBlock environment).length ≤ i →
        memory'[i]? = memory[i]?) ∧
      (environmentBlock environment).length < 2 ^ 32 ∧
      ∀ countPtr sizePtr : I32, Inside memory countPtr 4 → Inside memory sizePtr 4 →
        Apart countPtr 4 sizePtr 4 →
        ∃ sizes, ((HostCall.environSizesGet countPtr sizePtr).run env).run h =
            ⟨.ok WasiErrno.success.toI32, h.setMemory sizes, []⟩ ∧
          readU32 sizes countPtr = .ok (UInt32.ofNat environment.length) ∧
          readU32 sizes sizePtr = .ok (UInt32.ofNat (environmentBlock environment).length) := by
  have hrun := environGet_run hmemory array buffer
  have herrno : ((HostCall.environGet array buffer).run env) = errno (environGet array buffer) := rfl
  rw [henvironment, places] at hrun
  by_cases hfits : buffer.toNat + (environmentBlock environment).length < 2 ^ 32
  · rw [if_pos hfits] at hrun
    dsimp only [putPlaces, putBoth] at hrun
    have hpointers := length_pointersFrom environment buffer.toNat
    by_cases harray : Inside memory array (pointersFrom environment buffer.toNat).length
    · rw [if_pos harray] at hrun
      by_cases hbuffer : Inside memory buffer (environmentBlock environment).length
      · rw [if_pos hbuffer] at hrun
        have hbuffer' : Inside (putAt memory array (pointersFrom environment buffer.toNat)) buffer
            (environmentBlock environment).length :=
          (inside_putAt (p := (array, _)) harray).2 hbuffer
        rw [herrno, errno_of_ok hrun]
        refine ⟨_, rfl, by rw [length_putAt hbuffer', length_putAt harray], ?_, ?_, by omega,
          fun countPtr sizePtr hcount hword hwords =>
            environSizesGet_reads henvironment hmemory (by omega) hcount hword hwords⟩
        · intro i hi
          have hvariable := length_environmentEntry environment[i]
          have hend := offsetOf_add_le hi
          rw [← offsetOf_eq_sum, ← hvariable]
          constructor
          · rw [bytesAt_putAt_of_apart hbuffer' (by unfold Apart at hapart; omega),
              bytesAt_putAt_part harray (by omega), bytesAt_pointersFrom hi,
              ofBytes_toBytes (by omega)]
          · rw [bytesAt_putAt_part hbuffer' hend, bytesAt_environmentBlock hi]
            rfl
        · intro i hout hout'
          rw [getElem?_putAt_of_outside hbuffer' hout',
            getElem?_putAt_of_outside harray (by omega)]
      · rw [if_neg hbuffer] at hrun
        rw [herrno, errno_of_err hrun] at hexit
        exact absurd (Exit.ok.inj hexit) (by decide)
    · rw [if_neg harray] at hrun
      rw [herrno, errno_of_err hrun] at hexit
      exact absurd (Exit.ok.inj hexit) (by decide)
  · rw [if_neg hfits] at hrun
    rw [herrno, errno_of_err hrun] at hexit
    exact absurd (Exit.ok.inj hexit) (by decide)

/-- A guest with the variables `A=1` and `BC=2`. -/
def twoVariables : HostState :=
  { HostState.new ⟨.unlimited, none, none, none, 0⟩
      (.new 0 ⟨[([65], [49]), ([66, 67], [50])], .info, [], [], 1, 2⟩)
    with memory := some (List.replicate 32 0) }

/-- The first variable stands at the address sixteen, and the second after it. -/
theorem environment_read_two_variables :
    (∃ memory',
      (((HostCall.environGet 8 16).run ⟨.refusing, fun _ => pure 0⟩).run twoVariables).state =
        twoVariables.setMemory memory' ∧
      ofBytes (bytesAt memory' 8 4) = 16 ∧ bytesAt memory' 16 4 = [65, 61, 49, 0] ∧
      ofBytes (bytesAt memory' 12 4) = 20 ∧ bytesAt memory' 20 5 = [66, 67, 61, 50, 0]) ∧
    ∃ sizes,
      ((HostCall.environSizesGet 0 4).run ⟨.refusing, fun _ => pure 0⟩).run twoVariables =
        ⟨.ok WasiErrno.success.toI32, twoVariables.setMemory sizes, []⟩ ∧
      readU32 sizes 0 = .ok 2 ∧ readU32 sizes 4 = .ok 9 := by
  obtain ⟨memory', hstate, -, hread, -, -, hsizes⟩ :=
    environment_read ⟨.refusing, fun _ => pure 0⟩ twoVariables (List.replicate 32 0)
      [([65], [49]), ([66, 67], [50])] rfl rfl 8 16 rfl (by unfold Apart; decide)
  obtain ⟨hpointer, hbytes⟩ := hread 0 (by decide)
  obtain ⟨hpointer', hbytes'⟩ := hread 1 (by decide)
  exact ⟨⟨memory', hstate, hpointer, hbytes, hpointer', hbytes'⟩,
    hsizes 0 4 (by decide) (by decide) (by unfold Apart; decide)⟩

end ProxyWasmHost
