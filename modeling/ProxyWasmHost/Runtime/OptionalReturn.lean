/-
  What a return to the guest leaves, whatever the allocator of the guest does but shrink
  the memory.
-/
import ProxyWasmHost.Lib.Leaves
import ProxyWasmHost.Runtime.Return

namespace ProxyWasmHost

open Prog GuestMemory

variable {run run' : I32 → Host I32} {h h₁ : HostState} {memory memory₁ bytes : Bytes}
  {returnData returnSize : Option GuestPtr} {t : List Event}

/-! ## What may be left when nothing was written -/

/-- The allocator's run for `size` bytes. -/
def allocation (run : I32 → Host I32) (size : ℕ) (h : HostState) : Res HostState Event Error I32 :=
  (run (UInt32.ofNat size)).run h

/-- **The host wrote nothing**: what is left is the state before, or what the allocator left of
    it, which is poisoned when it failed. -/
def Untouched (run : I32 → Host I32) (size : ℕ) (h : HostState) (t : List Event)
    (h' : HostState) : Prop :=
  (t = [] ∧ h' = h) ∨ (t = (allocation run size h).trace ∧
    (h' = (allocation run size h).state ∨ h' = (allocation run size h).state.poison))

theorem Untouched.memory_eq {size : ℕ} {h' : HostState} (huntouched : Untouched run size h t h') :
    h'.memory = h.memory ∨ h'.memory = (allocation run size h).state.memory := by
  rcases huntouched with ⟨-, rfl⟩ | ⟨-, rfl | rfl⟩
  · exact .inl rfl
  · exact .inr rfl
  · exact .inr rfl

/-- **The allocator does not shrink the memory.** -/
def Grows (run : I32 → Host I32) : Prop :=
  ∀ size h memory, h.memory = some memory → ∃ memory₁,
    ((run size).run h).state.memory = some memory₁ ∧ memory.length ≤ memory₁.length

theorem Allocates.grown {size : ℕ} {address : GuestPtr} (halloc : Allocates run h size address h₁ t)
    (hgrows : Grows run) (hmemory : h.memory = some memory) :
    ∃ memory₁, h₁.memory = some memory₁ ∧ memory.length ≤ memory₁.length := by
  cases halloc with
  | nothing => exact ⟨memory, hmemory, le_rfl⟩
  | block live exported pos fits found ran =>
    have hgrown := hgrows (UInt32.ofNat size) h memory hmemory
    rw [ran] at hgrown
    exact hgrown

/-- A word can be read at a pointer that is wanted. -/
def ValidPointer (memory : Bytes) (pointer : Option GuestPtr) : Prop :=
  ∀ p ∈ pointer, ∃ value, readU32 memory p = .ok value

/-- **The guest's memory is asked for room**: for a value that is not empty, whose address is
    wanted, and whose return pointers are valid. -/
def AsksRoom (h : HostState) (bytes : Bytes) (returnData returnSize : Option GuestPtr) : Prop :=
  bytes ≠ [] ∧ returnData.isSome ∧ ∃ memory, h.memory = some memory ∧
    ValidPointer memory returnData ∧ ValidPointer memory returnSize

/-! ## The allocation -/

theorem allocate_leaves (run : I32 → Host I32) {size : ℕ} (pos : 0 < size) (hsize : size < 2 ^ 32)
    (h : HostState) :
    Leaves (allocate run (UInt32.ofNat size))
      (fun address t h' => Allocates run h size address h' t)
      (fun _ => Untouched run size h) (Untouched run size h) h := by
  have hnone : Untouched run size h [] h := .inl ⟨rfl, rfl⟩
  have hnat : (UInt32.ofNat size).toNat = size := by
    rw [UInt32.toNat_ofNat', Nat.mod_eq_of_lt hsize]
  unfold allocate
  refine Leaves.bind_read (Leaves.bind_require (fun hlive => ?_) fun _ => hnone)
  refine Leaves.bind_read (Leaves.bind_require (fun hexported => ?_) fun _ => hnone)
  refine Leaves.bind_require (fun hfits => ?_) fun _ => hnone
  rw [hnat] at hfits
  refine Leaves.bind (M := fun answer t h' => ?_) (E := fun _ => Untouched run size h)
    (U := Untouched run size h) (Leaves.attempt ?_) ?_
  · exact (allocation run size h).trace = t ∧ (allocation run size h).state = h' ∧
      ∀ address, answer = .ok address → (allocation run size h).exit = .ok address
  · unfold Leaves allocation
    cases hrun : (run (UInt32.ofNat size)).run h with
    | mk exit h' t =>
      cases exit with
      | ok address => exact ⟨rfl, rfl, fun _ heq => by rw [Except.ok.inj heq]⟩
      | err error => exact ⟨rfl, rfl, by rintro _ ⟨⟩⟩
      | panicked => exact .inr ⟨by rw [allocation, hrun], .inl (by rw [allocation, hrun])⟩
  · rintro (error | address) t h' ⟨rfl, rfl, hexit⟩
    · exact .inr ⟨List.append_nil _, .inr rfl⟩
    · refine Leaves.bind_require (fun hfound => ?_) fun _ => .inr ⟨List.append_nil _, .inl rfl⟩
      refine Leaves.pure ?_
      rw [List.append_nil]
      refine .block (by simpa using hlive) hexported pos hfits hfound ?_
      have hok := hexit address rfl
      unfold allocation at hok ⊢
      rw [← hok]

/-- **Bytes are copied** into a block of their length, or the host wrote nothing. -/
theorem writeToGuest_leaves (run : I32 → Host I32) (bytes : Bytes) (hmemory : h.memory = some memory)
    (hgrows : Grows run) :
    Leaves (writeToGuest run bytes)
      (fun written t h' => ∃ h₁ memory₁ copied, Allocates run h bytes.length written.1 h₁ t ∧
        h₁.memory = some memory₁ ∧ memory.length ≤ memory₁.length ∧
        writeRange (UInt32.ofNat bytes.length) memory₁ written.1 bytes = .ok copied ∧
        h' = h₁.setMemory copied ∧ written.2 = UInt32.ofNat bytes.length)
      (fun _ => Untouched run bytes.length h) (Untouched run bytes.length h) h := by
  have hnone : Untouched run bytes.length h [] h := .inl ⟨rfl, rfl⟩
  unfold writeToGuest
  refine Leaves.bind_require (fun hlen => ?_) fun _ => hnone
  have hnat : (UInt32.ofNat bytes.length).toNat = bytes.length := by
    rw [UInt32.toNat_ofNat', Nat.mod_eq_of_lt hlen]
  dsimp only
  by_cases hzero : bytes = []
  · subst hzero
    refine Leaves.congr (Leaves.pure (a := ((0, 0) : GuestPtr × UInt32)) ?_) rfl
    refine ⟨h, memory, memory, .nothing, hmemory, le_rfl, ?_, ?_, rfl⟩
    · exact writeRange_ok.2 ⟨rfl, by decide, Nat.zero_le _, by simp⟩
    · exact (setMemory_self hmemory).symm
  · have hpos : 0 < bytes.length := List.length_pos_iff.2 hzero
    rw [if_neg fun heq => by rw [heq] at hnat; exact absurd hnat.symm hpos.ne']
    refine Leaves.bind (allocate_leaves run hpos hlen h) ?_
    intro address t h₁ halloc
    have hran : allocation run bytes.length h = ⟨.ok address, h₁, t⟩ := halloc.ran hpos
    have huntouched : Untouched run bytes.length h (t ++ []) h₁ :=
      .inr ⟨by rw [hran, List.append_nil], .inl (by rw [hran])⟩
    obtain ⟨memory₁, hmemory₁, hgrown⟩ := hgrows (UInt32.ofNat bytes.length) h memory hmemory
    rw [show (run (UInt32.ofNat bytes.length)).run h = _ from hran] at hmemory₁
    refine Leaves.bind_ofExcept (fun slice hslice => ?_) fun _ _ => huntouched
    have hnew : GuestSlice.new address (UInt32.ofNat bytes.length) = .ok slice := by
      cases hnew : GuestSlice.new address (UInt32.ofNat bytes.length) with
      | error e => rw [hnew] at hslice; cases hslice
      | ok found => rw [hnew] at hslice; exact congrArg _ (Except.ok.inj hslice)
    obtain ⟨rfl, hlen'⟩ := new_eq_ok.1 hnew
    cases hcopy : GuestMemory.write memory₁ slice bytes with
    | error error =>
      unfold Leaves
      rw [bind_of_err (hostWrite_of_error hmemory₁ hcopy)]
      exact huntouched
    | ok copied =>
      refine Leaves.bind_ok (hostWrite_of_ok hmemory₁ hcopy) (Leaves.pure ?_)
      rw [List.append_nil]
      refine ⟨h₁, memory₁, copied, halloc, hmemory₁, hgrown, ?_, rfl, hlen'⟩
      exact bind_eq_ok.2 ⟨slice, hnew, hcopy⟩

/-! ## The two words -/

/-- A word is stored at a pointer that is wanted. -/
def storeWord (memory : Bytes) (pointer : Option GuestPtr) (value : UInt32) :
    Except MemoryError Bytes :=
  pointer.elim (.ok memory) (GuestMemory.writeU32 memory · value)

/-- A memory in which `bytes` were copied to `address` if their address is wanted, and the
    wanted words were stored. -/
def ReturnedTo (memory bytes : Bytes) (address : GuestPtr) (returnData returnSize : Option GuestPtr)
    (memory' : Bytes) : Prop :=
  ∃ copied stored,
    (if returnData.isSome then
      writeRange (UInt32.ofNat bytes.length) memory address bytes = .ok copied
    else copied = memory) ∧
    storeWord copied returnData address = .ok stored ∧
    storeWord stored returnSize (UInt32.ofNat bytes.length) = .ok memory'

theorem length_of_storeWord {pointer : Option GuestPtr} {value : UInt32}
    (hstore : storeWord memory pointer value = .ok memory₁) : memory₁.length = memory.length := by
  cases pointer with
  | none => rw [Except.ok.inj hstore]
  | some p => exact length_of_writeU32 hstore

theorem ReturnedTo.length_eq {address : GuestPtr} {memory' : Bytes}
    (hreturned : ReturnedTo memory bytes address returnData returnSize memory') :
    memory'.length = memory.length := by
  obtain ⟨copied, stored, hcopy, hstore, hlast⟩ := hreturned
  rw [length_of_storeWord hlast, length_of_storeWord hstore]
  cases returnData with
  | none => exact congrArg _ hcopy
  | some p => exact (changes_of_writeRange hcopy).1

theorem storeWord_of_valid {pointer : Option GuestPtr} (hvalid : ValidPointer memory pointer)
    (hgrown : memory.length ≤ memory₁.length) (value : UInt32) :
    ∃ memory', storeWord memory₁ pointer value = .ok memory' ∧ memory'.length = memory₁.length := by
  cases pointer with
  | none => exact ⟨memory₁, rfl, rfl⟩
  | some p =>
    obtain ⟨found, hread⟩ := hvalid p rfl
    obtain ⟨memory', hwrite⟩ := writeU32_of_readU32 hread hgrown value
    exact ⟨memory', hwrite, length_of_writeU32 hwrite⟩

/-- The room a return asks for. -/
def roomFor (bytes : Bytes) (returnData : Option GuestPtr) : ℕ :=
  if returnData.isSome then bytes.length else 0

theorem finds_checkPointer (hmemory : h.memory = some memory) {pointer : Option GuestPtr} :
    Finds (checkPointer pointer) (fun _ => ValidPointer memory pointer) h := by
  cases pointer with
  | none => exact Finds.pure fun p hp => absurd hp (Option.not_mem_none p)
  | some p =>
    unfold checkPointer
    cases hread : readU32 memory p with
    | ok value =>
      have hrun := checkPointer_of_ok hmemory hread
      refine ⟨_, hrun, fun _ _ q hq => ?_⟩
      rw [← Option.mem_some_iff.1 hq]
      exact ⟨value, hread⟩
    | error error =>
      dsimp only
      refine ⟨.err (.memory error), ?_, by rintro _ ⟨⟩⟩
      rw [bind_of_ok_nil (hostSplit_of_some hmemory), hread]
      rfl

/-- The value and its address. -/
theorem writeData_leaves (run : I32 → Host I32) (bytes : Bytes) (hmemory : h.memory = some memory)
    (hgrows : Grows run) (hvalid : ValidPointer memory returnData) :
    Leaves (writeData run bytes returnData)
      (fun written t h' => ∃ address h₁ memory₁ copied stored,
        Allocates run h (roomFor bytes returnData) address h₁ t ∧ h₁.memory = some memory₁ ∧
        memory.length ≤ stored.length ∧ h' = h₁.setMemory stored ∧
        written = returnData.map (fun _ => UInt32.ofNat bytes.length) ∧
        (if returnData.isSome then
          writeRange (UInt32.ofNat bytes.length) memory₁ address bytes = .ok copied
        else copied = memory₁) ∧ storeWord copied returnData address = .ok stored)
      (fun _ => Untouched run bytes.length h) (Untouched run bytes.length h) h := by
  cases returnData with
  | none =>
    refine Leaves.pure ⟨0, h, memory, memory, memory, .nothing, hmemory, le_rfl,
      (setMemory_self hmemory).symm, rfl, rfl, rfl⟩
  | some pointer =>
    refine Leaves.bind (writeToGuest_leaves run bytes hmemory hgrows) ?_
    rintro ⟨address, len⟩ t h' ⟨h₁, memory₁, copied, halloc, hmemory₁, hgrown, hcopy, rfl, hlen⟩
    obtain rfl : len = UInt32.ofNat bytes.length := hlen
    have hlength : copied.length = memory₁.length := (changes_of_writeRange hcopy).1
    obtain ⟨stored, hstore, hstored⟩ := storeWord_of_valid hvalid (hgrown.trans hlength.ge) address
    refine Leaves.bind_ok (hostWrite_of_ok (memory_setMemory hmemory₁ copied) hstore) ?_
    refine Leaves.pure ?_
    rw [setMemory_setMemory, List.append_nil]
    exact ⟨address, h₁, memory₁, copied, stored, halloc, hmemory₁,
      hgrown.trans (hlength.ge.trans hstored.ge), rfl, rfl, hcopy, hstore⟩

/-- **A return leaves** the memory in which the value and the words are, or nothing written. -/
theorem writeOptionalReturn_leaves (run : I32 → Host I32) (bytes : Bytes)
    (returnData returnSize : Option GuestPtr) (hgrows : Grows run) (h : HostState) :
    Leaves (writeOptionalReturn run bytes returnData returnSize)
      (fun _ t h' => ∃ address h₁ memory₁ memory',
        Allocates run h (roomFor bytes returnData) address h₁ t ∧
        h₁.memory = some memory₁ ∧ h' = h₁.setMemory memory' ∧
        (returnSize.isSome → bytes.length < 2 ^ 32) ∧
        ReturnedTo memory₁ bytes address returnData returnSize memory')
      (fun _ => Untouched run bytes.length h) (Untouched run bytes.length h) h := by
  have hnone : Untouched run bytes.length h [] h := .inl ⟨rfl, rfl⟩
  unfold writeOptionalReturn
  cases hmemory : h.memory with
  | none =>
    have hsplit : hostSplit.run h = ⟨.err .missingMemory, h, []⟩ := by
      unfold hostSplit
      rw [bind_of_ok_nil (a := h.memory) (r := h) rfl, hmemory]
      rfl
    unfold Leaves
    rw [bind_of_err hsplit]
    exact hnone
  | some memory =>
    refine Leaves.bind_ok (hostSplit_of_some hmemory) ?_
    refine Leaves.bind_finds (finds_checkPointer hmemory) (fun _ hdata => ?_) (fun _ => hnone) hnone
    refine Leaves.bind_finds (finds_checkPointer hmemory) (fun _ hsize => ?_) (fun _ => hnone) hnone
    refine Leaves.bind (writeData_leaves run bytes hmemory hgrows hdata) ?_
    rintro written t h' ⟨address, h₁, memory₁, copied, stored, halloc, hmemory₁, hgrown, rfl, rfl,
      hcopy, hstore⟩
    have hleft := memory_setMemory hmemory₁ stored
    cases returnSize with
    | none =>
      refine Leaves.pure ⟨address, h₁, memory₁, stored, by rwa [List.append_nil], hmemory₁, rfl,
        by rintro ⟨⟩, copied, stored, hcopy, hstore, rfl⟩
    | some pointer =>
      obtain ⟨memory', hlast, -⟩ := storeWord_of_valid hsize hgrown (UInt32.ofNat bytes.length)
      have hlen : Leaves (writtenSize bytes (returnData.map fun _ => UInt32.ofNat bytes.length))
          (fun len u h' => bytes.length < 2 ^ 32 ∧ len = UInt32.ofNat bytes.length ∧ u = [] ∧
            h' = h₁.setMemory stored)
          (fun _ u h' => Untouched run bytes.length h (t ++ u) h') (fun _ _ => False)
          (h₁.setMemory stored) := by
        cases returnData with
        | none =>
          obtain rfl : copied = memory₁ := hcopy
          obtain rfl : copied = stored := Except.ok.inj hstore
          rw [setMemory_self hmemory₁]
          obtain ⟨-, rfl, rfl⟩ : address = 0 ∧ h₁ = h ∧ t = [] := halloc.eq_of_zero
          exact Leaves.bind_require (fun hfits => Leaves.pure ⟨hfits, rfl, rfl, rfl⟩) fun _ => hnone
        | some data =>
          have hfits : bytes.length < 2 ^ 31 := halloc.size_lt
          exact Leaves.pure ⟨by omega, rfl, rfl, rfl⟩
      refine Leaves.bind (hlen.mono (fun _ _ _ h => h) (fun _ _ _ h => h) fun _ _ => False.elim) ?_
      rintro len u h' ⟨hfits, rfl, rfl, rfl⟩
      unfold Leaves
      rw [hostWrite_of_ok hleft hlast, setMemory_setMemory]
      exact ⟨address, h₁, memory₁, memory', by rwa [List.append_nil, List.append_nil], hmemory₁, rfl,
        fun _ => hfits, copied, stored, hcopy, hstore, hlast⟩

/-! ## When the allocator runs -/

/-- The allocation depends on one run of the allocator, from the state it is asked in. -/
theorem allocate_congr {size : ℕ} (hrun : allocation run' size h = allocation run size h) :
    (allocate run' (UInt32.ofNat size)).run h = (allocate run (UInt32.ofNat size)).run h := by
  have hattempt : (Prog.attempt (run' (UInt32.ofNat size)) : Host (Except Error I32)).run h =
      (Prog.attempt (run (UInt32.ofNat size)) : Host (Except Error I32)).run h := by
    unfold allocation at hrun
    simp only [Prog.attempt, hrun]
  unfold allocate
  refine Finds.quiet.bind_congr fun poisoned _ => ?_
  refine Finds.quiet.bind_congr fun _ _ => ?_
  refine Finds.quiet.bind_congr fun allocator _ => ?_
  refine Finds.quiet.bind_congr fun _ _ => ?_
  refine Finds.quiet.bind_congr fun _ _ => ?_
  exact bind_congr hattempt fun _ _ _ _ => rfl

theorem writeToGuest_congr
    (hrun : bytes ≠ [] → allocation run' bytes.length h = allocation run bytes.length h) :
    (writeToGuest run' bytes).run h = (writeToGuest run bytes).run h := by
  by_cases hbytes : bytes = []
  · subst hbytes
    rfl
  · unfold writeToGuest
    refine Finds.quiet.bind_congr fun _ _ => ?_
    dsimp only
    split
    · rfl
    · exact bind_congr (allocate_congr (hrun hbytes)) fun _ _ _ _ => rfl

/-- **A return depends on one run of the allocator**, and on that only where it asks for room. -/
theorem writeOptionalReturn_congr (hrun : AsksRoom h bytes returnData returnSize →
      allocation run' bytes.length h = allocation run bytes.length h) :
    (writeOptionalReturn run' bytes returnData returnSize).run h =
      (writeOptionalReturn run bytes returnData returnSize).run h := by
  unfold writeOptionalReturn
  have hfinds : Finds hostSplit (fun memory => h.memory = some memory) h :=
    Finds.bind_read Finds.orThrow
  refine hfinds.bind_congr fun memory hmemory => ?_
  refine (finds_checkPointer hmemory).bind_congr fun _ hdata => ?_
  refine (finds_checkPointer hmemory).bind_congr fun _ hsize => ?_
  refine bind_congr ?_ fun _ _ _ _ => rfl
  cases returnData with
  | none => rfl
  | some pointer =>
    refine bind_congr (writeToGuest_congr fun hbytes => ?_) fun _ _ _ _ => rfl
    exact hrun ⟨hbytes, rfl, memory, hmemory, hdata, hsize⟩

/-! ## What the guest reads after a return -/

/-- The cells of the wanted words, and the block, do not meet. -/
def Disjoint (address : GuestPtr) (size : ℕ) (returnData returnSize : Option GuestPtr) : Prop :=
  (∀ p ∈ returnData, ∀ q ∈ returnSize, Apart p 4 q 4) ∧
    (∀ p ∈ returnData, Apart address size p 4) ∧ ∀ q ∈ returnSize, Apart address size q 4

theorem ReturnedTo.data {address pointer : GuestPtr} {memory' : Bytes}
    (hsmall : bytes.length < 2 ^ 32)
    (hreturned : ReturnedTo memory bytes address (some pointer) returnSize memory')
    (hdisjoint : Disjoint address bytes.length (some pointer) returnSize) :
    readU32 memory' pointer = .ok address ∧
      readRange (UInt32.ofNat bytes.length) memory' address = .ok bytes := by
  obtain ⟨copied, stored, hcopy, hstore, hlast⟩ := hreturned
  obtain ⟨hwords, hdata, hsize⟩ := hdisjoint
  have hcopy : writeRange (UInt32.ofNat bytes.length) memory address bytes = .ok copied := hcopy
  have hstore : GuestMemory.writeU32 copied pointer address = .ok stored := hstore
  have hnat : (UInt32.ofNat bytes.length).toNat = bytes.length := by
    rw [UInt32.toNat_ofNat', Nat.mod_eq_of_lt hsmall]
  have hcopied := (changes_of_writeRange hcopy).2.1
  have hkept := readRange_of_writeRange hcopied (writeU32_eq .. ▸ hstore)
    (by rw [hnat]; exact hdata pointer rfl)
  have hword := readU32_of_writeU32 hstore
  cases returnSize with
  | none =>
    obtain rfl : stored = memory' := Except.ok.inj hlast
    exact ⟨hword, hkept⟩
  | some q =>
    have hlast : GuestMemory.writeU32 stored q (UInt32.ofNat bytes.length) = .ok memory' := hlast
    refine ⟨?_, readRange_of_writeRange hkept (writeU32_eq .. ▸ hlast)
      (by rw [hnat]; exact hsize q rfl)⟩
    obtain ⟨found, hfound, hvalue⟩ := readU32_ok.1 hword
    refine readU32_ok.2 ⟨found, readRange_of_writeRange hfound (writeU32_eq .. ▸ hlast) ?_, hvalue⟩
    exact hwords pointer rfl q rfl

theorem ReturnedTo.size {address pointer : GuestPtr} {memory' : Bytes}
    (hreturned : ReturnedTo memory bytes address returnData (some pointer) memory') :
    readU32 memory' pointer = .ok (UInt32.ofNat bytes.length) := by
  obtain ⟨copied, stored, -, -, hlast⟩ := hreturned
  exact readU32_of_writeU32 hlast

/-! ## Every return -/

section Returns

variable (run bytes returnData returnSize)

/-- A return that fails wrote nothing. -/
theorem untouched_of_not_ok (hgrows : Grows run) (h : HostState)
    (hexit : ((writeOptionalReturn run bytes returnData returnSize).run h).exit ≠ .ok ()) :
    Untouched run bytes.length h ((writeOptionalReturn run bytes returnData returnSize).run h).trace
      ((writeOptionalReturn run bytes returnData returnSize).run h).state := by
  have hleaves := writeOptionalReturn_leaves run bytes returnData returnSize hgrows h
  unfold Leaves at hleaves
  cases hres : ((writeOptionalReturn run bytes returnData returnSize).run h).exit with
  | ok u => exact absurd hres hexit
  | err e => rw [hres] at hleaves; exact hleaves
  | panicked => rw [hres] at hleaves; exact hleaves

/-- A return that succeeds. -/
theorem returned_of_ok (hgrows : Grows run) (h : HostState)
    (hexit : ((writeOptionalReturn run bytes returnData returnSize).run h).exit = .ok ()) :
    ∃ address h₁ memory₁ memory', Allocates run h (roomFor bytes returnData) address h₁
        ((writeOptionalReturn run bytes returnData returnSize).run h).trace ∧
      h₁.memory = some memory₁ ∧
      ((writeOptionalReturn run bytes returnData returnSize).run h).state = h₁.setMemory memory' ∧
      (returnSize.isSome → bytes.length < 2 ^ 32) ∧
      ReturnedTo memory₁ bytes address returnData returnSize memory' := by
  have hleaves := writeOptionalReturn_leaves run bytes returnData returnSize hgrows h
  unfold Leaves at hleaves
  rw [hexit] at hleaves
  exact hleaves

/-- **Where no room is asked for, the allocator did not run.** -/
theorem quiet_of_not_asksRoom (h : HostState)
    (hasks : ¬ AsksRoom h bytes returnData returnSize) :
    ((writeOptionalReturn run bytes returnData returnSize).run h).trace = [] ∧
      (((writeOptionalReturn run bytes returnData returnSize).run h).exit ≠ .ok () →
        ((writeOptionalReturn run bytes returnData returnSize).run h).state.memory = h.memory) := by
  -- An allocator that fails at once does as well as any other.
  have hfails : Grows fun _ => Prog.throw .missingAllocator := fun _ _ memory hmemory =>
    ⟨memory, hmemory, le_rfl⟩
  have hsame : (writeOptionalReturn (fun _ => Prog.throw .missingAllocator) bytes returnData
      returnSize).run h = (writeOptionalReturn run bytes returnData returnSize).run h :=
    writeOptionalReturn_congr fun h => absurd h hasks
  rw [← hsame]
  have hclean : ∀ {t h'}, Untouched (fun _ => Prog.throw .missingAllocator) bytes.length h t h' →
      t = [] ∧ h'.memory = h.memory := by
    rintro t h' (⟨rfl, rfl⟩ | ⟨rfl, rfl | rfl⟩) <;> exact ⟨rfl, rfl⟩
  refine ⟨?_, fun hexit => (hclean (untouched_of_not_ok _ _ _ _ hfails h hexit)).2⟩
  by_cases hexit : ((writeOptionalReturn (fun _ => Prog.throw .missingAllocator) bytes returnData
      returnSize).run h).exit = .ok ()
  · obtain ⟨address, h₁, memory₁, memory', halloc, -⟩ := returned_of_ok _ _ _ _ hfails h hexit
    rcases Nat.eq_zero_or_pos (roomFor bytes returnData) with hzero | hpos
    · rw [hzero] at halloc
      exact halloc.eq_of_zero.2.2
    · have hran := halloc.ran hpos
      exact absurd (congrArg Res.exit hran) (by rintro ⟨⟩)
  · exact (hclean (untouched_of_not_ok _ _ _ _ hfails h hexit)).1

end Returns

/-- A return of a body that succeeds leaves the number of bytes where their size is wanted. -/
theorem size_of_writeReturn {data size : GuestPtr} (hgrows : Grows run)
    (hexit : ((writeReturn run bytes data size).run h).exit = .ok ()) :
    ∃ memory', ((writeReturn run bytes data size).run h).state.memory = some memory' ∧
      readU32 memory' size = .ok (UInt32.ofNat bytes.length) := by
  unfold writeReturn at hexit ⊢
  cases hrun : (writeOptionalReturn run bytes (some data) (some size)).run h with
  | mk exit h' t =>
    simp only [Prog.mapErr, hrun] at hexit ⊢
    cases exit with
    | ok u =>
      have hok : ((writeOptionalReturn run bytes (some data) (some size)).run h).exit = .ok () := by
        rw [hrun]
      obtain ⟨address, h₁, memory₁, memory', -, hmemory₁, hstate, -, hreturned⟩ :=
        returned_of_ok run bytes (some data) (some size) hgrows h hok
      rw [hrun] at hstate
      obtain rfl : h' = h₁.setMemory memory' := hstate
      exact ⟨memory', memory_setMemory hmemory₁ memory', hreturned.size⟩
    | err e => cases hexit
    | panicked => cases hexit

theorem roomFor_of_asksRoom (h : AsksRoom h bytes returnData returnSize) :
    roomFor bytes returnData = bytes.length := if_pos h.2.1

/-- **Every return to the guest**: nothing but one run of the allocator matters to it, which it
    makes only for a value that is not empty, whose address is wanted and whose pointers are
    valid; one that fails leaves the memory as it was, or as the allocator left it; and after one
    that succeeds the guest reads the value back through the two words. -/
theorem optional_return (run : I32 → Host I32) (hgrows : Grows run) (h : HostState) (bytes : Bytes)
    (returnData returnSize : Option GuestPtr) (r : Res HostState Event Error Unit)
    (hr : (writeOptionalReturn run bytes returnData returnSize).run h = r) :
    (∀ run' : I32 → Host I32, (AsksRoom h bytes returnData returnSize →
        allocation run' bytes.length h = allocation run bytes.length h) →
      (writeOptionalReturn run' bytes returnData returnSize).run h = r) ∧
    (r.trace = [] ∨ AsksRoom h bytes returnData returnSize ∧
      r.trace = (allocation run bytes.length h).trace) ∧
    (r.exit ≠ .ok () → r.state.memory = h.memory ∨ AsksRoom h bytes returnData returnSize ∧
      r.state.memory = (allocation run bytes.length h).state.memory) ∧
    (r.exit = .ok () → ∃ address memory', r.state.memory = some memory' ∧
      (bytes = [] → address = 0) ∧
      (AsksRoom h bytes returnData returnSize →
        (allocation run bytes.length h).exit = .ok address) ∧
      (∀ q ∈ returnSize, bytes.length < 2 ^ 32 ∧
        readU32 memory' q = .ok (UInt32.ofNat bytes.length)) ∧
      (Disjoint address bytes.length returnData returnSize → ∀ p ∈ returnData,
        readU32 memory' p = .ok address ∧
        readRange (UInt32.ofNat bytes.length) memory' address = .ok bytes)) := by
  subst hr
  refine ⟨fun run' hrun => writeOptionalReturn_congr hrun, ?_, ?_, ?_⟩
  · by_cases hasks : AsksRoom h bytes returnData returnSize
    · by_cases hexit : ((writeOptionalReturn run bytes returnData returnSize).run h).exit = .ok ()
      · obtain ⟨address, h₁, memory₁, memory', halloc, -⟩ := returned_of_ok _ _ _ _ hgrows h hexit
        rw [roomFor_of_asksRoom hasks] at halloc
        have hran := halloc.ran (List.length_pos_iff.2 hasks.1)
        exact .inr ⟨hasks, (congrArg Res.trace hran).symm⟩
      · rcases untouched_of_not_ok _ _ _ _ hgrows h hexit with ⟨htrace, -⟩ | ⟨htrace, -⟩
        · exact .inl htrace
        · exact .inr ⟨hasks, htrace⟩
    · exact .inl (quiet_of_not_asksRoom _ _ _ _ h hasks).1
  · intro hexit
    by_cases hasks : AsksRoom h bytes returnData returnSize
    · rcases (untouched_of_not_ok _ _ _ _ hgrows h hexit).memory_eq with hsame | hleft
      · exact .inl hsame
      · exact .inr ⟨hasks, hleft⟩
    · exact .inl ((quiet_of_not_asksRoom _ _ _ _ h hasks).2 hexit)
  · intro hexit
    obtain ⟨address, h₁, memory₁, memory', halloc, hmemory₁, hstate, hsmall, hreturned⟩ :=
      returned_of_ok _ _ _ _ hgrows h hexit
    refine ⟨address, memory', by rw [hstate]; exact memory_setMemory hmemory₁ memory', ?_, ?_, ?_, ?_⟩
    · rintro rfl
      have hzero : roomFor [] returnData = 0 := ite_self 0
      rw [hzero] at halloc
      exact halloc.eq_of_zero.1
    · intro hasks
      rw [roomFor_of_asksRoom hasks] at halloc
      exact congrArg Res.exit (halloc.ran (List.length_pos_iff.2 hasks.1))
    · intro q hq
      obtain rfl : returnSize = some q := hq
      exact ⟨hsmall rfl, hreturned.size⟩
    · intro hdisjoint p hp
      obtain rfl : returnData = some p := hp
      have hfits : bytes.length < 2 ^ 31 := halloc.size_lt
      exact hreturned.data (by omega) hdisjoint

/-- A store with a memory of sixteen bytes. -/
def sixteen : HostState :=
  { HostState.new ⟨.unlimited, none, none, none, 0⟩ (.new 0 ⟨[], .info, [], [], 1, 2⟩) with
    memory := some (List.replicate 16 0), allocator := true }

/-- Two bytes are returned at the address eight. -/
theorem optional_return_at_eight : ∃ memory',
    ((writeOptionalReturn (fun _ => pure 8) [1, 2] (some 0) (some 4)).run sixteen).state.memory =
      some memory' ∧
    readU32 memory' 0 = .ok 8 ∧ readU32 memory' 4 = .ok 2 ∧ readRange 2 memory' 8 = .ok [1, 2] := by
  have hgrows : Grows fun _ => pure 8 := fun _ _ memory hmemory => ⟨memory, hmemory, le_rfl⟩
  obtain ⟨-, -, -, hok⟩ :=
    optional_return (fun _ => pure 8) hgrows sixteen [1, 2] (some 0) (some 4) _ rfl
  obtain ⟨address, memory', hmemory, -, haddress, hsize, hdata⟩ := hok rfl
  have hvalid : ∀ p : GuestPtr, p = 0 ∨ p = 4 →
      ValidPointer (List.replicate 16 0) (some p) := by
    rintro p hp q hq
    rw [← Option.mem_some_iff.1 hq]
    rcases hp with rfl | rfl <;> exact ⟨0, rfl⟩
  obtain rfl : address = 8 := (Exit.ok.inj (haddress ⟨by decide, rfl, _, rfl, hvalid 0 (.inl rfl),
    hvalid 4 (.inr rfl)⟩)).symm
  have hdisjoint : Disjoint 8 2 (some 0) (some 4) := by
    refine ⟨?_, ?_, ?_⟩ <;> simp [Apart]
  obtain ⟨hword, hback⟩ := hdata hdisjoint 0 rfl
  exact ⟨memory', hmemory, hword, (hsize 4 rfl).2, hback⟩

end ProxyWasmHost
