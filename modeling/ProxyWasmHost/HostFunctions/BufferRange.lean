/-
  The ranges of a buffer that the guest reads and writes, served by the crate or by a plain
  vector of the stream state.
-/
import ProxyWasmHost.HostFunctions.HeaderMapSize

namespace ProxyWasmHost

open Prog GuestMemory

/-! ## The buffer of a plain vector -/

namespace VecBuffer

def copyRangeInto (bytes : Bytes) (start maxSize : ℕ) : Bytes :=
  let range := clampRange bytes.length start maxSize
  (bytes.take range.2).drop range.1

/-- What `replace` leaves of the vector, which is a `Vec::splice`. -/
def replace (bytes : Bytes) (start size : ℕ) (value : Bytes) : Bytes :=
  let range := clampRange bytes.length start size
  bytes.take range.1 ++ value ++ bytes.drop range.2

/-- How a vector answers the host functions; it allows every write. -/
def buffer (bytes : Bytes) : Buffer where
  len := bytes.length
  copyRangeInto := copyRangeInto bytes
  replace _ _ _ := .ok ()

end VecBuffer

/-! ## The selected range -/

/-- The bytes from `start` up to `start + size`, as far as there are any. -/
def bytesFrom (bytes : Bytes) (start size : ℕ) : Bytes :=
  (bytes.take (min (start + size) bytes.length)).drop start

section Ranges

variable {bytes value : Bytes} {start size : ℕ} {source : Source}

/-- Two sums of 32 bits do not saturate. -/
theorem clampRange_eq {len : ℕ} (hstart : start < 2 ^ 32) (hsize : size < 2 ^ 32) :
    clampRange len start size = (min start len, min (min start len + size) len) := by
  have hlimit : 2 ^ 33 ≤ usizeMax := by decide
  unfold clampRange satAdd
  dsimp only
  rw [min_eq_left (by omega : min start len + size ≤ usizeMax)]

/-- A range that was clamped is clamped to itself. -/
theorem clampRange_clampRange {len : ℕ} (hstart : start < 2 ^ 32) (hsize : size < 2 ^ 32) :
    clampRange len (clampRange len start size).1
        ((clampRange len start size).2 - (clampRange len start size).1) =
      clampRange len start size := by
  rw [clampRange_eq hstart hsize]
  dsimp only
  rw [clampRange_eq (by omega) (by omega)]
  refine Prod.ext ?_ ?_ <;> dsimp only <;> omega

theorem bytesFrom_eq (bytes : Bytes) (start size : ℕ) :
    bytesFrom bytes start size =
      (bytes.take (min (min start bytes.length + size) bytes.length)).drop
        (min start bytes.length) := by
  unfold bytesFrom
  rcases Nat.le_total start bytes.length with hle | hle
  · rw [min_eq_left hle]
  · rw [min_eq_right hle, List.drop_eq_nil_of_le (by rw [List.length_take]; omega),
      List.drop_eq_nil_of_le (by rw [List.length_take]; omega)]

/-- What the guest reads of `bytes`, whoever serves them. -/
inductive Source.Holds (bytes : Bytes) : Source → Prop
  | crate : Source.Holds bytes (.crate bytes)
  | stream : Source.Holds bytes (.stream (VecBuffer.buffer bytes))

theorem Source.Holds.len_eq (h : Source.Holds bytes source) : source.len = bytes.length := by
  cases h <;> rfl

/-- **The crate and a vector are read alike.** -/
theorem Source.Holds.copyRange_eq (h : Source.Holds bytes source) (hstart : start < 2 ^ 32)
    (hsize : size < 2 ^ 32) : source.copyRange start size = bytesFrom bytes start size := by
  rw [bytesFrom_eq]
  cases h with
  | crate =>
    unfold Source.copyRange
    dsimp only [Source.len]
    rw [clampRange_eq hstart hsize]
  | stream =>
    unfold Source.copyRange
    dsimp only [Source.len, VecBuffer.buffer, VecBuffer.copyRangeInto]
    rw [clampRange_clampRange hstart hsize, clampRange_eq hstart hsize]

/-- **A write is a splice**: what it selects goes, and the value stands in its place. -/
theorem replace_eq (bytes value : Bytes) (hstart : start < 2 ^ 32) (hsize : size < 2 ^ 32) :
    VecBuffer.replace bytes (clampRange bytes.length start size).1
        ((clampRange bytes.length start size).2 - (clampRange bytes.length start size).1) value =
      bytes.take (min start bytes.length) ++ value ++ bytes.drop (min (start + size) bytes.length) := by
  unfold VecBuffer.replace
  rw [clampRange_clampRange hstart hsize, clampRange_eq hstart hsize]
  dsimp only
  rw [show min (min start bytes.length + size) bytes.length = min (start + size) bytes.length by
    omega]

/-- What a splice put in is read back where it stands. -/
theorem bytesFrom_splice (before value after : Bytes) :
    bytesFrom (before ++ value ++ after) before.length value.length = value := by
  have hle : before.length + value.length ≤ (before ++ value ++ after).length := by
    simp only [List.length_append]
    omega
  have hlength : (before ++ value).length = before.length + value.length := List.length_append
  unfold bytesFrom
  rw [min_eq_left hle, List.take_left' hlength, List.drop_left]

end Ranges

/-! ## The two host functions -/

section Functions

variable {env : Env} {h h' : HostState} {bufferType : BufferType} {source : Source}
  {buffer : Buffer} {memory value : Bytes} {t : List Event}
  {bufferId start size returnData returnSize valueData valueSize : I32}

theorem tryFrom_run (hid : BufferType.tryFrom bufferId = some bufferType) :
    (orStatus (BufferType.tryFrom bufferId) .badArgument).run h = ⟨.ok bufferType, h, []⟩ := by
  rw [hid]
  rfl

/-- A range that can be read is found and read. -/
theorem looks_of_readRange {ptr : GuestPtr} {len : UInt32}
    (hvalue : readRange len memory ptr = .ok value) :
    ∃ range, (slice ptr len).run h = ⟨.ok range, h, []⟩ ∧
      (readSlice memory range).run h = ⟨.ok value, h, []⟩ := by
  obtain ⟨range, hrange, hread⟩ := bind_eq_ok.1 hvalue
  refine ⟨range, ?_, ?_⟩
  · unfold slice checked
    rw [hrange]
    rfl
  · unfold readSlice checked
    rw [hread]
    rfl

/-- To look for the bytes of a buffer leaves the guest's memory alone. -/
theorem memory_of_readBuffer (hsource : (readBuffer env bufferType).run h = ⟨.ok source, h', t⟩) :
    h'.memory = h.memory := by
  have hleaves : Leaves (readBuffer env bufferType) (fun _ _ h' => h'.memory = h.memory)
      (fun _ _ h' => h'.memory = h.memory) (fun _ h' => h'.memory = h.memory) h := by
    unfold readBuffer
    split
    · exact Leaves.finds Finds.quiet (fun _ _ => rfl) (fun _ => rfl) rfl
    · exact Leaves.finds Finds.quiet (fun _ _ => rfl) (fun _ => rfl) rfl
    · exact Leaves.finds Finds.quiet (fun _ _ => rfl) (fun _ => rfl) rfl
    · refine Leaves.bind_modify (Leaves.bind_finds Finds.quiet (fun call _ => ?_) (fun _ => rfl) rfl)
      unfold askStream
      rw [bind_assoc]
      refine Leaves.bind_emit (Leaves.bind_finds Finds.quiet (fun answer _ => ?_) (fun _ => rfl) rfl)
      exact Leaves.finds Finds.quiet (fun _ _ => rfl) (fun _ => rfl) rfl
  unfold Leaves at hleaves
  rw [hsource] at hleaves
  exact hleaves

theorem proxyGetBufferBytes_run {found found' : UInt32} (start size : I32)
    (hid : BufferType.tryFrom bufferId = some bufferType) (hmemory : h.memory = some memory)
    (hdata : readU32 memory returnData = .ok found) (hsize : readU32 memory returnSize = .ok found')
    (hsource : (readBuffer env bufferType).run h = ⟨.ok source, h', t⟩) :
    (start.toNat ≤ source.len →
      (proxyGetBufferBytes env bufferId start size returnData returnSize).run h =
        ⟨((env.writeReturn (source.copyRange start.toNat size.toNat) returnData returnSize).run h').exit,
          ((env.writeReturn (source.copyRange start.toNat size.toNat) returnData returnSize).run
            h').state,
          t ++ ((env.writeReturn (source.copyRange start.toNat size.toNat) returnData
            returnSize).run h').trace⟩) ∧
    (source.len < start.toNat →
      (proxyGetBufferBytes env bufferId start size returnData returnSize).run h =
        ⟨.err (.status .badArgument), h', t⟩) := by
  unfold proxyGetBufferBytes
  rw [bind_of_ok_nil (tryFrom_run hid), bind_of_ok_nil (split_run hmemory),
    bind_of_ok_nil (checkWord_of_ok hdata), bind_of_ok_nil (checkWord_of_ok hsize),
    bind_of_ok hsource]
  constructor
  · intro hle
    rw [require, Prog.require, if_pos hle, bind_of_ok_nil (a := ()) (r := h') rfl]
  · intro hlt
    rw [require, Prog.require, if_neg (not_le.2 hlt),
      bind_of_err (e := .status .badArgument) (r := h') (t := []) rfl]
    exact congrArg (Res.mk _ _) (List.append_nil t)

/-- How the guest's write ends, for what the buffer answered. -/
def replaceExit : Except NotAllowed Unit → Exit Failure Unit
  | .ok () => .ok ()
  | .error _ => .err (.status .notFound)

/-- The host asks the buffer to replace the clamped range, and answers as it does. -/
theorem proxySetBufferBytes_run (hid : BufferType.tryFrom bufferId = some bufferType)
    (hmemory : h.memory = some memory) (hvalue : readRange valueSize memory valueData = .ok value)
    (hbuffer : (writeBuffer env bufferType).run h = ⟨.ok buffer, h', t⟩) :
    (proxySetBufferBytes env bufferId start size valueData valueSize).run h =
      ⟨replaceExit (buffer.replace (clampRange buffer.len start.toNat size.toNat).1
        ((clampRange buffer.len start.toNat size.toNat).2 -
          (clampRange buffer.len start.toNat size.toNat).1) value), h', t⟩ := by
  obtain ⟨range, hslice, hbytes⟩ := looks_of_readRange hvalue
  unfold proxySetBufferBytes
  rw [bind_of_ok_nil (tryFrom_run hid), bind_of_ok_nil hslice, bind_of_ok_nil (split_run hmemory),
    bind_of_ok_nil hbytes, bind_of_ok hbuffer]
  dsimp only
  generalize buffer.replace _ _ _ = answer
  cases answer with
  | ok u => exact congrArg (Res.mk _ _) (List.append_nil t)
  | error e => exact congrArg (Res.mk _ _) (List.append_nil t)

end Functions

/-- **Reads and writes of a buffer.** A read answers the bytes from its start, as many as there
    are and were asked for, and is refused exactly when it starts past the end, whether the crate
    serves the bytes or a vector of the stream state. A write asks the buffer for the clamped
    range, which splices the value into a vector: it prepends, appends, injects or replaces. What
    was written is read back. -/
theorem buffer_ranges :
    (∀ (env : Env) (h h' : HostState) (t : List Event) (bufferType : BufferType) (source : Source)
        (memory bytes : Bytes) (bufferId start size returnData returnSize : I32)
        (found found' : UInt32),
      BufferType.tryFrom bufferId = some bufferType → h.memory = some memory →
      readU32 memory returnData = .ok found → readU32 memory returnSize = .ok found' →
      (readBuffer env bufferType).run h = ⟨.ok source, h', t⟩ → source.Holds bytes →
      (start.toNat ≤ bytes.length → ∀ address h₁ memory₁ u,
        Room env.allocator h' memory (bytesFrom bytes start.toNat size.toNat).length address h₁
          memory₁ u →
        ∃ memory', Returned memory₁ (bytesFrom bytes start.toNat size.toNat) address returnData
            returnSize memory' ∧
          (proxyGetBufferBytes env bufferId start size returnData returnSize).run h =
            ⟨.ok (), h₁.setMemory memory', t ++ u⟩) ∧
      (bytes.length < start.toNat →
        (proxyGetBufferBytes env bufferId start size returnData returnSize).run h =
          ⟨.err (.status .badArgument), h', t⟩)) ∧
    (∀ (env : Env) (h h' : HostState) (t : List Event) (bufferType : BufferType) (buffer : Buffer)
        (memory bytes value : Bytes) (bufferId start size valueData valueSize : I32),
      BufferType.tryFrom bufferId = some bufferType → h.memory = some memory →
      readRange valueSize memory valueData = .ok value →
      (writeBuffer env bufferType).run h = ⟨.ok buffer, h', t⟩ → buffer.len = bytes.length →
      (proxySetBufferBytes env bufferId start size valueData valueSize).run h =
        ⟨replaceExit (buffer.replace (clampRange bytes.length start.toNat size.toNat).1
          ((clampRange bytes.length start.toNat size.toNat).2 -
            (clampRange bytes.length start.toNat size.toNat).1) value), h', t⟩) ∧
    ∀ (bytes value left : Bytes) (start size : I32),
      VecBuffer.replace bytes (clampRange bytes.length start.toNat size.toNat).1
          ((clampRange bytes.length start.toNat size.toNat).2 -
            (clampRange bytes.length start.toNat size.toNat).1) value = left →
      left = bytes.take (min start.toNat bytes.length) ++ value ++
        bytes.drop (min (start.toNat + size.toNat) bytes.length) ∧
      (start = 0 → size = 0 → left = value ++ bytes) ∧
      (bytes.length ≤ start.toNat → left = bytes ++ value) ∧
      (start.toNat ≤ bytes.length → size = 0 →
        left = bytes.take start.toNat ++ value ++ bytes.drop start.toNat) ∧
      bytesFrom left (min start.toNat bytes.length) value.length = value := by
  refine ⟨?_, ?_, ?_⟩
  · intro env h h' t bufferType source memory bytes bufferId start size returnData returnSize found
      found' hid hmemory hdata hsize hsource hholds
    obtain ⟨hread, hrefused⟩ := proxyGetBufferBytes_run start size hid hmemory hdata hsize
      hsource
    rw [hholds.len_eq, hholds.copyRange_eq start.toNat_lt size.toNat_lt] at hread
    rw [hholds.len_eq] at hrefused
    refine ⟨fun hle address h₁ memory₁ u hroom => ?_, hrefused⟩
    have hmemory' : h'.memory = some memory := by rw [memory_of_readBuffer hsource, hmemory]
    obtain ⟨memory', hreturned, hrun⟩ := hroom.returns hmemory' hdata hsize
    refine ⟨memory', hreturned, ?_⟩
    rw [hread hle, Env.writeReturn, hrun]
  · intro env h h' t bufferType buffer memory bytes value bufferId start size valueData valueSize hid
      hmemory hvalue hbuffer hlen
    rw [← hlen]
    exact proxySetBufferBytes_run hid hmemory hvalue hbuffer
  · intro bytes value left start size hleft
    rw [replace_eq bytes value start.toNat_lt size.toNat_lt] at hleft
    subst hleft
    refine ⟨rfl, ?_, ?_, ?_, ?_⟩
    · rintro rfl rfl
      simp
    · intro hpast
      rw [min_eq_right hpast, min_eq_right (by omega), List.take_length, List.drop_length,
        List.append_nil]
    · rintro hinside rfl
      simp [hinside]
    · have hlength : (bytes.take (min start.toNat bytes.length)).length =
          min start.toNat bytes.length := by
        rw [List.length_take]
        omega
      have hback := bytesFrom_splice (bytes.take (min start.toNat bytes.length)) value
        (bytes.drop (min (start.toNat + size.toNat) bytes.length))
      rwa [hlength] at hback

/-- A guest with a VM configuration of five bytes, in a callback for its first root, with a seven
    in its memory. -/
def configured : HostState :=
  { HostState.new ⟨.unlimited, none, none, none, 0⟩
      { AbiState.new 0 ⟨[], .info, [], [1, 2, 3, 4, 5], 1, 2⟩ with
        streamState := some (.value 3 4)
        contexts := { (ContextTable.new.create none).toOption.elim .new Prod.snd with
          effective := some .min } }
    with memory := some (List.replicate 8 0 ++ [7] ++ List.replicate 55 0), allocator := true }

/-- An embedder whose stream state lends a vector of two bytes, and an allocator that has room. -/
def lendsTwoBytes : Env :=
  ⟨{ World.refusing with stream :=
      { World.refusing.stream with buffer := fun _ _ _ => some (.ok (VecBuffer.buffer [8, 9])) } },
    fun _ => pure 32⟩

/-- The guest reads three bytes of its configuration, none past the end, and appends to the
    vector. -/
theorem buffer_ranges_configured :
    (∃ memory', (proxyGetBufferBytes lendsTwoBytes 6 1 3 0 4).run configured =
        ⟨.ok (), configured.setMemory memory', []⟩ ∧ readRange 3 memory' 32 = .ok [2, 3, 4]) ∧
    (proxyGetBufferBytes lendsTwoBytes 6 6 1 0 4).run configured =
      ⟨.err (.status .badArgument), configured, []⟩ ∧
    (proxySetBufferBytes lendsTwoBytes 0 5 1 8 1).run configured =
      ⟨.ok (), configured, [.stream (configured.abi.invocation .min)
        (.buffer .write .httpRequestBody)]⟩ ∧
    bytesFrom [8, 9, 7] 2 1 = [7] := by
  obtain ⟨hreads, hwrites, hsplices⟩ := buffer_ranges
  have hpast (start size : I32) := hreads lendsTwoBytes configured configured [] .vmConfiguration
    (.crate [1, 2, 3, 4, 5]) (List.replicate 8 0 ++ [7] ++ List.replicate 55 0) [1, 2, 3, 4, 5]
    6 start size 0 4 0 0 rfl rfl rfl rfl rfl .crate
  have hroom : Room lendsTwoBytes.allocator configured
      (List.replicate 8 0 ++ [7] ++ List.replicate 55 0) 3 32 configured
      (List.replicate 8 0 ++ [7] ++ List.replicate 55 0) [] :=
    ⟨.block rfl rfl (by decide) (by decide) (by decide) rfl, rfl, le_rfl, by decide, by decide⟩
  obtain ⟨memory', hreturned, hrun⟩ := (hpast 1 3).1 (by decide) 32 configured _ [] hroom
  obtain ⟨-, -, hback⟩ := hreturned.reads (.inl (by decide)) (.inr (by decide)) (.inr (by decide))
  have hwrite := hwrites lendsTwoBytes configured configured
    [.stream (configured.abi.invocation .min) (.buffer .write .httpRequestBody)] .httpRequestBody
    (VecBuffer.buffer [8, 9]) (List.replicate 8 0 ++ [7] ++ List.replicate 55 0) [8, 9] [7] 0 5 1 8 1
    rfl rfl rfl rfl rfl
  obtain ⟨-, -, -, -, hsplice⟩ := hsplices [8, 9] [7] [8, 9, 7] 5 1 rfl
  exact ⟨⟨memory', hrun, hback⟩, (hpast 6 1).2 (by decide), hwrite, hsplice⟩

/-- A start past the end appends. -/
example : VecBuffer.replace [1, 2] (clampRange 2 9 4).1
    ((clampRange 2 9 4).2 - (clampRange 2 9 4).1) [7] = [1, 2, 7] := by decide

end ProxyWasmHost
