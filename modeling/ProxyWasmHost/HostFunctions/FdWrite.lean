/-
  What the guest logs with `fd_write`: the regions of its table, gathered under the budget
  of the embedder.
-/
import ProxyWasmHost.Codec.RoundTrip
import ProxyWasmHost.HostFunctions.Environ
import ProxyWasmHost.Lib.Leaves

namespace ProxyWasmHost

open Prog GuestMemory LittleEndian

namespace Wasi

variable {h : HostState} {memory message : Bytes} {budget : ℕ}

/-! ## Bodies that fail with an errno -/

/-- An errno that is not success. -/
class Fails (errno : WasiErrno) : Prop where
  ne_success : errno ≠ .success

instance : Fails .badf := ⟨by decide⟩

instance : Fails .fault := ⟨by decide⟩

instance : Fails .inval := ⟨by decide⟩

/-- **A body that answers success** only where it returns. -/
class Errs {α : Type} (m : Wasi α) : Prop where
  errs : ∀ h, (m.run h).exit ≠ .err .success

namespace Errs

variable {α β : Type} {m : Wasi α} {f : α → Wasi β}

instance pure {a : α} : Errs (Pure.pure a : Wasi α) := ⟨by rintro h ⟨⟩⟩

instance purely {a : α} : Errs (Prog.pure a : Wasi α) := ⟨by rintro h ⟨⟩⟩

instance read {g : HostState → α} : Errs (Prog.read g : Wasi α) := ⟨by rintro h ⟨⟩⟩

instance modify {u : HostState → HostState} : Errs (Prog.modify u : Wasi Unit) :=
  ⟨by rintro h ⟨⟩⟩

instance emit {e : HostState → Event} : Errs (Prog.emit e : Wasi Unit) := ⟨by rintro h ⟨⟩⟩

instance orPanic {o : Option α} : Errs (Prog.orPanic o : Wasi α) := by
  cases o <;> exact ⟨by rintro h ⟨⟩⟩

instance throw {errno : WasiErrno} [herrno : Fails errno] : Errs (Prog.throw errno : Wasi α) := by
  refine ⟨fun h hexit => ?_⟩
  cases hexit
  exact herrno.ne_success rfl

instance bind [hm : Errs m] [hf : ∀ a, Errs (f a)] : Errs (m >>= f) := by
  refine ⟨fun h => ?_⟩
  have hfirst := hm.errs h
  cases hrun : m.run h with
  | mk exit h' t =>
    rw [hrun] at hfirst
    cases exit with
    | ok a =>
      rw [bind_of_ok hrun]
      exact (hf a).errs h'
    | err e =>
      rw [bind_of_err hrun]
      rintro ⟨⟩
      exact hfirst rfl
    | panicked =>
      rw [bind_of_panicked hrun]
      rintro ⟨⟩

theorem andThen [Errs m] (hf : ∀ a, Errs (f a)) : Errs (m >>= f) := bind

instance ite {c : Prop} [Decidable c] {n : Wasi α} [Errs m] [Errs n] :
    Errs (if c then m else n) := by
  split <;> infer_instance

instance require {c : Prop} [Decidable c] {errno : WasiErrno} [Fails errno] :
    Errs (Prog.require c errno : Wasi Unit) := by
  unfold Prog.require
  infer_instance

instance orThrow {o : Option α} {errno : WasiErrno} [Fails errno] :
    Errs (Prog.orThrow o errno : Wasi α) := by
  cases o with
  | some a => exact purely
  | none => exact throw

instance fault {access : Except MemoryError α} : Errs (Wasi.fault access : Wasi α) := by
  cases access with
  | ok a => exact purely
  | error e => exact throw

instance split : Errs Wasi.split := by
  refine ⟨fun h => ?_⟩
  unfold Wasi.split
  cases hrun : hostSplit.run h with
  | mk exit h' t =>
    simp only [Prog.mapErr, hrun]
    cases exit <;> rintro ⟨⟩

instance write {access : Bytes → Except MemoryError Bytes} : Errs (Wasi.write access) := by
  unfold Wasi.write; infer_instance

instance regions : ∀ table, Errs (Wasi.regions table)
  | [] => by unfold Wasi.regions; infer_instance
  | (ptr, len) :: table => by
    have := regions table
    unfold Wasi.regions
    infer_instance

instance readAll : ∀ entries, Errs (Wasi.readAll memory entries)
  | [] => by unfold Wasi.readAll; infer_instance
  | entry :: entries => by
    have : Errs (Wasi.readAll memory entries) := readAll entries
    unfold Wasi.readAll
    infer_instance

instance gather : ∀ entries message, Errs (Wasi.gather memory budget entries message)
  | [], message => by unfold Wasi.gather; infer_instance
  | entry :: entries, message => by
    have : ∀ message, Errs (Wasi.gather memory budget entries message) := gather entries
    unfold Wasi.gather
    dsimp only
    infer_instance

instance writeLog {env : Env} {level : LogLevel} : Errs (ProxyWasmHost.writeLog env level message) := by
  unfold ProxyWasmHost.writeLog; infer_instance

instance fdWrite {env : Env} {fd iovs iovsLen nwritten : I32} :
    Errs (Wasi.fdWrite env fd iovs iovsLen nwritten) := by
  unfold Wasi.fdWrite
  dsimp only
  iterate 8 refine andThen fun _ => ?_
  infer_instance

end Errs

/-- Success is answered exactly where the body returns. -/
theorem errno_success_iff {body : Wasi Unit} [hbody : Errs body] :
    ((errno body).run h).exit = .ok WasiErrno.success.toI32 ↔ (body.run h).exit = .ok () := by
  have herrs := hbody.errs h
  cases hrun : body.run h with
  | mk exit h' t =>
    rw [hrun] at herrs
    cases exit with
    | ok u =>
      rw [errno_of_ok hrun]
      exact iff_of_true rfl rfl
    | err e =>
      rw [errno_of_err hrun]
      refine iff_of_false (fun hok => ?_) (by rintro ⟨⟩)
      cases e <;> first | exact herrs rfl | exact absurd (Exit.ok.inj hok) (by decide)
    | panicked =>
      rw [errno_of_panicked hrun]
      exact iff_of_false (by rintro ⟨⟩) (by rintro ⟨⟩)

/-! ## The table of regions -/

/-- The regions that the table of `count` entries at `ptr` names, each as its address and its
    length. -/
def iovecs (memory : Bytes) : ℕ → ℕ → List (ℕ × ℕ)
  | _, 0 => []
  | ptr, count + 1 =>
    (ofBytes (bytesAt memory ptr 4), ofBytes (bytesAt memory (ptr + 4) 4)) ::
      iovecs memory (ptr + 8) count

/-- The bytes of the regions, in order. -/
def gathered (memory : Bytes) (regions : List (ℕ × ℕ)) : Bytes :=
  regions.flatMap fun region => bytesAt memory region.1 region.2

/-- The number of bytes the regions name. -/
def totalOf (regions : List (ℕ × ℕ)) : ℕ := (regions.map (·.2)).sum

/-- The region is inside the memory. -/
def Readable (memory : Bytes) (region : ℕ × ℕ) : Prop :=
  region.1 + region.2 < 2 ^ 32 ∧ region.1 + region.2 ≤ memory.length

theorem length_bytesAt {start size : ℕ} (h : start + size ≤ memory.length) :
    (bytesAt memory start size).length = size := by
  rw [bytesAt, List.length_take, List.length_drop]
  omega

theorem bytesAt_add (memory : Bytes) (start size size' : ℕ) :
    bytesAt memory start (size + size') = bytesAt memory start size ++ bytesAt memory (start + size) size' := by
  rw [bytesAt, bytesAt, bytesAt, List.take_add, List.drop_drop]

/-- The chunks of the table are its entries. -/
theorem readTable_bytesAt {ptr count : ℕ} (hinside : ptr + 8 * count ≤ memory.length) :
    Codec.readTable (bytesAt memory ptr (8 * count)) = iovecs memory ptr count := by
  induction count generalizing ptr with
  | zero =>
    rw [Nat.mul_zero, bytesAt, List.take_zero]
    rfl
  | succ count ih =>
    have hsplit : bytesAt memory ptr (8 * (count + 1)) = bytesAt memory ptr 4 ++
        bytesAt memory (ptr + 4) 4 ++ bytesAt memory (ptr + 8) (8 * count) := by
      rw [show 8 * (count + 1) = 4 + 4 + 8 * count by omega, bytesAt_add, bytesAt_add]
    have hkey : (bytesAt memory ptr 4).length = Codec.lengthSize := length_bytesAt (by omega)
    have hvalue : (bytesAt memory (ptr + 4) 4).length = Codec.lengthSize :=
      length_bytesAt (by omega)
    rw [hsplit, Codec.readTable_append hkey hvalue, ih (by omega), iovecs]

/-- The address and the length of a region are words. -/
theorem iovecs_lt {ptr count : ℕ} {region : ℕ × ℕ} (h : region ∈ iovecs memory ptr count) :
    region.1 < 2 ^ 32 ∧ region.2 < 2 ^ 32 := by
  have hword : ∀ start, ofBytes (bytesAt memory start 4) < 2 ^ 32 := by
    intro start
    have hlength : (bytesAt memory start 4).length ≤ 4 := by
      rw [bytesAt, List.length_take]
      omega
    exact (ofBytes_lt _).trans_le (Nat.pow_le_pow_right (by decide) hlength)
  induction count generalizing ptr with
  | zero => exact absurd h List.not_mem_nil
  | succ count ih =>
    rcases List.mem_cons.1 h with rfl | h
    · exact ⟨hword _, hword _⟩
    · exact ih h

theorem length_gathered {regions : List (ℕ × ℕ)} (h : ∀ region ∈ regions, Readable memory region) :
    (gathered memory regions).length = totalOf regions := by
  induction regions with
  | nil => rfl
  | cons region regions ih =>
    obtain ⟨hregion, hrest⟩ := List.forall_mem_cons.1 h
    rw [gathered, List.flatMap_cons, List.length_append, length_bytesAt hregion.2]
    exact congrArg (region.2 + ·) (ih hrest)

/-! ## What the steps find -/

theorem finds_fault {α : Type} {access : Except MemoryError α} :
    Finds (fault access : Wasi α) (fun a => access = .ok a) h := by
  cases access with
  | ok a => exact Finds.pure rfl
  | error e => exact Finds.throw

/-- A slice as its address and its length. -/
def regionOf (slice : GuestSlice) : ℕ × ℕ := (slice.ptr.toNat, slice.len.toNat)

/-- The entries of a table of words are its regions. -/
theorem finds_regions : ∀ table : List (ℕ × ℕ), (∀ region ∈ table, region.1 < 2 ^ 32 ∧
    region.2 < 2 ^ 32) → Finds (regions table) (fun entries => entries.map regionOf = table) h
  | [], _ => Finds.pure rfl
  | region :: table, hwords => by
    obtain ⟨⟨hptr, hlen⟩, hrest⟩ := List.forall_mem_cons.1 hwords
    obtain ⟨ptr, len⟩ := region
    unfold regions
    refine Finds.bind finds_fault fun entry hentry => ?_
    refine Finds.bind (finds_regions table hrest) fun entries hentries => Finds.pure ?_
    obtain ⟨hptr', hlen'⟩ := new_eq_ok.1 hentry
    rw [List.map_cons, hentries, regionOf, hptr', hlen', UInt32.toNat_ofNat', UInt32.toNat_ofNat',
      Nat.mod_eq_of_lt hptr, Nat.mod_eq_of_lt hlen]

theorem read_eq_ok {slice : GuestSlice} {bytes : Bytes} :
    GuestMemory.read memory slice = .ok bytes ↔
      slice.ptr.toNat + slice.len.toNat ≤ memory.length ∧
        bytes = bytesAt memory slice.ptr.toNat slice.len.toNat := by
  unfold GuestMemory.read
  simp only [bind_eq_ok, bounds_eq_ok, pure_eq_ok]
  constructor
  · rintro ⟨-, hle, rfl⟩
    exact ⟨hle, rfl⟩
  · rintro ⟨hle, rfl⟩
    exact ⟨(), hle, rfl⟩

theorem finds_readAll : ∀ entries : List GuestSlice,
    Finds (readAll memory entries) (fun _ => ∀ region ∈ entries.map regionOf,
      Readable memory region) h
  | [] => Finds.pure fun _ hmem => absurd hmem List.not_mem_nil
  | entry :: entries => by
    unfold readAll
    refine Finds.bind finds_fault fun bytes hbytes => ?_
    refine (finds_readAll entries).mono fun _ hrest => ?_
    rw [List.map_cons]
    exact List.forall_mem_cons.2 ⟨⟨entry.fits, (read_eq_ok.1 hbytes).1⟩, hrest⟩

/-- **The regions are gathered** as far as the budget has room. -/
theorem gather_run : ∀ (entries : List GuestSlice) (message : Bytes),
    (∀ region ∈ entries.map regionOf, Readable memory region) → message.length ≤ budget →
    (gather memory budget entries message).run h =
      ⟨.ok (message ++ (gathered memory (entries.map regionOf)).take (budget - message.length)), h, []⟩
  | [], message, _, _ => by
    unfold gather
    simp [gathered, Pure.pure, Prog.pure]
  | entry :: entries, message, hreadable, hroom => by
    rw [List.map_cons] at hreadable
    obtain ⟨hentry, hrest⟩ := List.forall_mem_cons.1 hreadable
    have hlength : (bytesAt memory entry.ptr.toNat entry.len.toNat).length = entry.len.toNat :=
      length_bytesAt hentry.2
    unfold gather
    dsimp only
    split
    · rename_i hfull
      rw [hfull, List.take_zero, List.append_nil]
      rfl
    · have hread : (fault (GuestMemory.read memory entry) : Wasi Bytes).run h =
          ⟨.ok (bytesAt memory entry.ptr.toNat entry.len.toNat), h, []⟩ := by
        rw [read_eq_ok.2 ⟨hentry.2, rfl⟩]
        rfl
      rw [bind_of_ok_nil hread, gather_run entries _ hrest
        (by rw [List.length_append, List.length_take]; omega)]
      have hleft : budget - (message ++ (bytesAt memory entry.ptr.toNat entry.len.toNat).take
          (budget - message.length)).length =
          budget - message.length - (bytesAt memory entry.ptr.toNat entry.len.toNat).length := by
        rw [List.length_append, List.length_take]
        omega
      rw [hleft, List.append_assoc, ← List.take_append]
      rfl

/-! ## What the guest logs -/

/-- A message without one final newline, if it has one. -/
def withoutNewline (message : Bytes) : Bytes :=
  if message.getLast? = some 10 then message.dropLast else message

/-- The level of the descriptor. -/
def levelOf (fd : I32) : Option LogLevel :=
  if fd = 1 then some .info else if fd = 2 then some .error else none

/-- What is logged of the regions. -/
def messageOf (memory : Bytes) (max : Option ℕ) (regions : List (ℕ × ℕ)) : Bytes :=
  withoutNewline ((gathered memory regions).take (max.getD memory.length))

/-- **`fd_write` logs the regions** and counts their bytes, or it leaves everything as it was. -/
theorem fdWrite_leaves (env : Env) (fd iovs iovsLen nwritten : I32) (hmemory : h.memory = some memory) :
    Leaves (fdWrite env fd iovs iovsLen nwritten)
      (fun _ t h' => ∃ level, levelOf fd = some level ∧ Inside memory nwritten 4 ∧
        iovsLen.toNat ≤ maxIovecs ∧
        (∀ region ∈ iovecs memory iovs.toNat iovsLen.toNat, Readable memory region) ∧
        h' = h.setMemory (putAt memory nwritten (toBytes 4
          (min (totalOf (iovecs memory iovs.toNat iovsLen.toNat)) u32Max))) ∧
        t = if iovsLen = 0 then [] else [.logged h.abi.logContext level
          (messageOf memory h.limits.maxLogBytes (iovecs memory iovs.toNat iovsLen.toNat))])
      (fun _ t h' => t = [] ∧ h' = h) (fun _ _ => True) h := by
  have hsame : ([] : List Event) = [] ∧ h = h := ⟨rfl, rfl⟩
  unfold fdWrite
  refine Leaves.bind_orThrow (fun level hlevel => ?_) fun _ => hsame
  refine Leaves.bind_ok (split_of_some hmemory) ?_
  refine Leaves.bind_finds finds_fault (fun word hword => ?_) (fun _ => hsame) trivial
  refine Leaves.bind_require (fun hpositive => ?_) fun _ => hsame
  refine Leaves.bind_require (fun hcount => ?_) fun _ => hsame
  refine Leaves.bind_finds finds_fault (fun slice hslice => ?_) (fun _ => hsame) trivial
  refine Leaves.bind_finds finds_fault (fun table htable => ?_) (fun _ => hsame) trivial
  obtain ⟨hinside, rfl⟩ := read_eq_ok.1 htable
  obtain ⟨hptr, hlen⟩ := new_eq_ok.1 hslice
  have hsize : slice.len.toNat = 8 * iovsLen.toNat := by
    have hbound : iovsLen.toNat ≤ 1024 := hcount
    rw [hlen, UInt32.toNat_ofNat', iovecSize, Nat.mod_eq_of_lt (by omega), Nat.mul_comm]
  rw [hptr, hsize] at hinside ⊢
  rw [readTable_bytesAt hinside]
  generalize hiovecs : iovecs memory iovs.toNat iovsLen.toNat = table
  refine Leaves.bind_finds (finds_regions table fun region hmem => ?_) (fun entries hentries => ?_)
    (fun _ => hsame) trivial
  · rw [← hiovecs] at hmem
    exact iovecs_lt hmem
  refine Leaves.bind_finds (finds_readAll entries) (fun _ hreadable => ?_) (fun _ => hsame) trivial
  have hgather : (gather memory (h.limits.maxLogBytes.getD memory.length) entries []).run h = _ :=
    gather_run entries [] hreadable (Nat.zero_le _)
  rw [hentries] at hreadable hgather
  refine Leaves.bind_read (Leaves.bind_ok hgather ?_)
  have htotal : (entries.map fun entry => entry.len.toNat).sum = totalOf table := by
    rw [← hentries, totalOf, List.map_map]
    rfl
  have hvalue : (UInt32.ofNat (min (totalOf table) u32Max)).toNat = min (totalOf table) u32Max := by
    have hmax : u32Max < 2 ^ 32 := by decide
    rw [UInt32.toNat_ofNat', Nat.mod_eq_of_lt (by omega)]
  obtain ⟨bytes, hbytes, -⟩ := readU32_ok.1 hword
  obtain ⟨hfits, hle, -⟩ := readRange_ok.1 hbytes
  have hnwritten : Inside memory nwritten 4 := ⟨hfits, hle⟩
  have hwrite := writeU32_run hmemory nwritten (UInt32.ofNat (min (totalOf table) u32Max))
  rw [if_pos hnwritten, hvalue] at hwrite
  have hzero : iovsLen.toNat > 0 ↔ ¬ iovsLen = 0 := by
    rw [← UInt32.toNat_inj, UInt32.toNat_zero]
    omega
  rw [List.nil_append, List.length_nil, Nat.sub_zero]
  dsimp only
  rw [htotal]
  by_cases hempty : iovsLen = 0
  · rw [if_neg fun hpos => hzero.1 hpos hempty]
    unfold Leaves
    rw [hwrite]
    exact ⟨level, hlevel, hnwritten, hcount, hreadable, rfl, (if_pos hempty).symm⟩
  · rw [if_pos (hzero.2 hempty)]
    unfold writeLog
    rw [bind_assoc]
    refine Leaves.bind_read ?_
    rw [bind_assoc]
    refine Leaves.bind_emit ?_
    generalize env.world.log _ _ _ = answer
    cases answer with
    | none =>
      unfold Leaves
      rw [bind_of_panicked (r := h) (t := []) rfl]
      trivial
    | some _ =>
      have hlogged : (Prog.orPanic (some ()) : Wasi Unit).run h = ⟨.ok (), h, []⟩ := rfl
      refine Leaves.bind_ok hlogged ?_
      unfold Leaves
      rw [hwrite]
      exact ⟨level, hlevel, hnwritten, hcount, hreadable, rfl, (if_neg hempty).symm⟩

end Wasi

/-- **What `fd_write` logs.** When it answers success, the sink has received one message, and
    none for an empty table: the regions in order, as many of their bytes as the budget has room
    for, without one final newline. The count that is stored is that of all their bytes, and no
    other byte of the memory changes. -/
theorem fd_write_logs (env : Env) (h : HostState) (memory : Bytes) (hmemory : h.memory = some memory)
    (fd iovs iovsLen nwritten : I32) (regions : List (ℕ × ℕ))
    (hregions : Wasi.iovecs memory iovs.toNat iovsLen.toNat = regions)
    (hexit : (((HostCall.fdWrite fd iovs iovsLen nwritten).run env).run h).exit =
      .ok WasiErrno.success.toI32) :
    iovsLen.toNat ≤ 1024 ∧ (∀ region ∈ regions, Wasi.Readable memory region) ∧
    ∃ level, Wasi.levelOf fd = some level ∧
      (((HostCall.fdWrite fd iovs iovsLen nwritten).run env).run h).trace =
        (if iovsLen = 0 then [] else [.logged h.abi.logContext level
          (Wasi.withoutNewline ((Wasi.gathered memory regions).take
            (min (Wasi.totalOf regions) (h.limits.maxLogBytes.getD memory.length))))]) ∧
      ∃ memory', (((HostCall.fdWrite fd iovs iovsLen nwritten).run env).run h).state =
          h.setMemory memory' ∧
        readU32 memory' nwritten = .ok (UInt32.ofNat (min (Wasi.totalOf regions) (2 ^ 32 - 1))) ∧
        memory'.length = memory.length ∧
        ∀ i, i < nwritten.toNat ∨ nwritten.toNat + 4 ≤ i → memory'[i]? = memory[i]? := by
  subst hregions
  have hleaves := Wasi.fdWrite_leaves env fd iovs iovsLen nwritten hmemory
  have herrno : (HostCall.fdWrite fd iovs iovsLen nwritten).run env =
      errno (Wasi.fdWrite env fd iovs iovsLen nwritten) := rfl
  rw [herrno, Wasi.errno_success_iff] at hexit
  rw [herrno]
  unfold Leaves at hleaves
  cases hrun : (Wasi.fdWrite env fd iovs iovsLen nwritten).run h with
  | mk exit h' t =>
    rw [hrun] at hleaves hexit
    cases exit with
    | ok u =>
      obtain ⟨level, hlevel, hinside, hcount, hreadable, hstate, htrace⟩ := hleaves
      have hfour : ∀ n, (toBytes 4 n).length = 4 := fun n => length_toBytes _ _
      have hputs : Inside memory nwritten (toBytes 4 (min (Wasi.totalOf (Wasi.iovecs memory
          iovs.toNat iovsLen.toNat)) u32Max)).length := by rwa [hfour]
      have hself := bytesAt_putAt_self hputs
      rw [hfour] at hself
      rw [errno_of_ok hrun]
      refine ⟨hcount, hreadable, level, hlevel, ?_, _, hstate, ?_, length_putAt hputs, ?_⟩
      · have htake : ∀ budget, (Wasi.gathered memory (Wasi.iovecs memory iovs.toNat
            iovsLen.toNat)).take (min (Wasi.totalOf (Wasi.iovecs memory iovs.toNat iovsLen.toNat))
            budget) = (Wasi.gathered memory (Wasi.iovecs memory iovs.toNat iovsLen.toNat)).take
            budget := by
          intro budget
          rw [← Wasi.length_gathered hreadable, ← List.take_take]
          exact List.take_of_length_le (by rw [List.length_take]; omega)
        rw [htake]
        exact htrace
      · refine readU32_of_bytesAt ((Wasi.inside_putAt (p := (nwritten, _)) hputs).2 hinside) ?_
        rw [UInt32.toNat_ofNat', Nat.mod_eq_of_lt (by omega)]
        exact hself
      · intro i hi
        exact getElem?_putAt_of_outside hputs (by rwa [hfour])
    | err e => cases hexit
    | panicked => cases hexit

/-- A guest with the regions `AB` and `C`, a newline and `D` in its table, whose log takes four
    bytes. -/
def twoRegions : HostState :=
  { HostState.new ⟨.unlimited, none, none, some 4, 0⟩ (.new 0 ⟨[], .info, [], [], 1, 2⟩)
    with memory := some ([16, 0, 0, 0, 2, 0, 0, 0, 18, 0, 0, 0, 3, 0, 0, 0, 65, 66, 67, 10, 68] ++
      List.replicate 11 0) }

/-- What is over the limit is counted and is not logged, nor is a newline that ends the rest. -/
theorem fd_write_logs_two_regions :
    (((HostCall.fdWrite 1 0 2 24).run ⟨.refusing, fun _ => pure 0⟩).run twoRegions).trace =
      [.logged twoRegions.abi.logContext .info [65, 66, 67]] ∧
    ∃ memory', (((HostCall.fdWrite 1 0 2 24).run ⟨.refusing, fun _ => pure 0⟩).run
        twoRegions).state = twoRegions.setMemory memory' ∧
      readU32 memory' 24 = .ok 5 := by
  obtain ⟨-, -, level, hlevel, htrace, memory', hstate, hcount, -⟩ :=
    fd_write_logs ⟨.refusing, fun _ => pure 0⟩ twoRegions
      ([16, 0, 0, 0, 2, 0, 0, 0, 18, 0, 0, 0, 3, 0, 0, 0, 65, 66, 67, 10, 68] ++
        List.replicate 11 0) rfl 1 0 2 24 [(16, 2), (18, 3)] (by decide) rfl
  cases hlevel
  exact ⟨htrace, memory', hstate, hcount⟩

end ProxyWasmHost
